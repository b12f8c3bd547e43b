import Debugger.Proofs.Repetition

/-!
The walk over the supertypes of a type is a search of the table of types. On a link that answers the
walk ends, whatever the types declare, and names what the search finds.
-/

namespace Debugger

/-! ### Links that answer -/

namespace Link

/-- The target is there, and none of these calls is refused from now on. -/
structure Serves (l : Link) (calls : List Call) : Prop where
  connected : l.target.connected = true
  served : ∀ n, l.calls ≤ n → ∀ c ∈ calls, l.refuses n c = none

/-- A link after calls that left the target as it was. -/
structure Asked (l l' : Link) : Prop where
  target : l'.target = l.target
  refuses : l'.refuses = l.refuses
  calls : l.calls ≤ l'.calls

variable {l l' l'' : Link}

theorem Asked.refl (l : Link) : l.Asked l := ⟨rfl, rfl, Nat.le_refl _⟩

theorem Asked.trans (h : l.Asked l') (h' : l'.Asked l'') : l.Asked l'' :=
  ⟨h'.target.trans h.target, h'.refuses.trans h.refuses, Nat.le_trans h.calls h'.calls⟩

theorem Asked.counted (l : Link) : l.Asked l.counted := ⟨rfl, rfl, Nat.le_succ _⟩

theorem Serves.asked {calls : List Call} (h : l.Serves calls) (h' : l.Asked l') :
    l'.Serves calls :=
  ⟨h'.target ▸ h.connected, fun n hn => h'.refuses ▸ h.served n (Nat.le_trans h'.calls hn)⟩

theorem Serves.mono {calls fewer : List Call} (h : l.Serves calls) (hsub : fewer ⊆ calls) :
    l.Serves fewer :=
  ⟨h.connected, fun n hn c hc => h.served n hn c (hsub hc)⟩

end Link

/-! ### The search -/

namespace Target

variable (t : Target)

/-- The direct supertypes, the superclass first. Names that no type has are passed over. -/
def parents (type : TypeId) : List TypeId :=
  match t.type? type with
  | some e => (e.superclass.toList ++ e.interfaces).filterMap t.typeNamed?
  | none => []

/-- Breadth-first search with at most `n` entries taken from the queue. -/
def search : Nat → List TypeId → List (TypeId × Nat) → List (TypeId × Nat)
  | 0, _, _ | _, _, [] => []
  | n + 1, seen, (type, depth) :: queue =>
    if type ∈ seen then search n seen queue
    else (type, depth) :: search n (type :: seen) (queue ++ (t.parents type).map (·, depth + 1))

/-- A type and its supertypes with their distances. -/
def supertypes (type : TypeId) : List (TypeId × Nat) :=
  t.search (Eval.hierarchyBound t) [] [(type, 0)]

/-- An entry of the search under the name of its type. -/
def named (entry : TypeId × Nat) : String × Nat :=
  (((t.type? entry.1).map (·.name)).getD "", entry.2)

variable {t}

theorem named_of_type {type : TypeId} {e : TypeEntry} (he : t.type? type = some e) (depth : Nat) :
    t.named (type, depth) = (e.name, depth) := by
  rw [named, he]
  rfl

/-- A name leads to a type that is there. -/
theorem type?_of_name {name : String} {type : TypeId} (h : t.typeNamed? name = some type) :
    ∃ e, t.type? type = some e := by
  obtain ⟨e, he, rfl⟩ := Option.map_eq_some_iff.mp h
  exact Option.isSome_iff_exists.mp
    (List.find?_isSome.mpr ⟨e, List.mem_of_find?_eq_some he, by simp⟩)

theorem type?_of_parent {type parent : TypeId} (h : parent ∈ t.parents type) :
    ∃ e, t.type? parent = some e := by
  unfold parents at h
  split at h
  · obtain ⟨name, -, hname⟩ := List.mem_filterMap.mp h
    exact type?_of_name hname
  · contradiction

theorem parents_eq {type : TypeId} {e : TypeEntry} (he : t.type? type = some e) :
    t.parents type =
      (e.superclass.bind t.typeNamed?).toList ++ e.interfaces.filterMap t.typeNamed? := by
  simp only [parents, he, List.filterMap_append]
  congr 1
  cases e.superclass with
  | none => rfl
  | some name => cases hname : t.typeNamed? name <;> simp [hname]

theorem length_parents {type : TypeId} {e : TypeEntry} (he : t.type? type = some e) :
    (t.parents type).length ≤ 1 + e.interfaces.length := by
  rw [parents_eq he, List.length_append]
  exact Nat.add_le_add (by cases e.superclass.bind t.typeNamed? <;> simp)
    (List.length_filterMap_le _ _)

/-- No entry stands nearer than what the search began with. -/
theorem search_depth {n : Nat} {seen : List TypeId} {queue : List (TypeId × Nat)} {least : Nat}
    (hq : ∀ q ∈ queue, least ≤ q.2) : ∀ entry ∈ t.search n seen queue, least ≤ entry.2 := by
  induction n generalizing seen queue with
  | zero => exact fun _ hm => absurd hm List.not_mem_nil
  | succ n ih =>
    cases queue with
    | nil => exact fun _ hm => absurd hm List.not_mem_nil
    | cons front queue =>
      have hfront := hq front List.mem_cons_self
      have hrest : ∀ q ∈ queue, least ≤ q.2 := fun q hm => hq q (List.mem_cons_of_mem _ hm)
      unfold search
      split
      · exact ih hrest
      · intro entry hm
        cases List.mem_cons.mp hm with
        | inl hm => exact hm ▸ hfront
        | inr hm =>
          refine ih (fun q hm => ?_) entry hm
          cases List.mem_append.mp hm with
          | inl hm => exact hrest q hm
          | inr hm =>
            obtain ⟨parent, -, rfl⟩ := List.mem_map.mp hm
            exact Nat.le_succ_of_le hfront

/-- The type itself comes first, and it is the only one at no distance. -/
theorem supertypes_eq (t : Target) (type : TypeId) :
    ∃ above, t.supertypes type = (type, 0) :: above ∧ ∀ entry ∈ above, 0 < entry.2 := by
  refine ⟨_, rfl, search_depth fun q hm => ?_⟩
  obtain ⟨parent, -, rfl⟩ := List.mem_map.mp hm
  exact Nat.one_pos

/-! ### How long the search can take -/

/-- How many entries the types that were not seen can still put into the queue, themselves taken
along. -/
def unseen (seen : List TypeId) : List TypeEntry → Nat
  | [] => 0
  | e :: types => (if e.id ∈ seen then 0 else 1 + e.interfaces.length) + unseen seen types

theorem unseen_cons_le (type : TypeId) (seen : List TypeId) (types : List TypeEntry) :
    unseen (type :: seen) types ≤ unseen seen types := by
  induction types with
  | nil => exact Nat.le_refl 0
  | cons d types ih =>
    refine Nat.add_le_add ?_ ih
    by_cases hd : d.id ∈ seen <;> by_cases htype : d.id = type <;> simp [hd, htype]

theorem unseen_cons {type : TypeId} {seen : List TypeId} (hseen : type ∉ seen) {e : TypeEntry}
    (hid : e.id = type) {types : List TypeEntry} (he : e ∈ types) :
    unseen (type :: seen) types + (1 + e.interfaces.length) ≤ unseen seen types := by
  induction types with
  | nil => contradiction
  | cons d types ih =>
    simp only [unseen]
    cases List.mem_cons.mp he with
    | inl heq =>
      have hle := unseen_cons_le type seen types
      rw [← heq, if_pos (hid ▸ List.mem_cons_self), if_neg (hid ▸ hseen)]
      omega
    | inr hm =>
      have hd : (if d.id ∈ type :: seen then 0 else 1 + d.interfaces.length) ≤
          if d.id ∈ seen then 0 else 1 + d.interfaces.length := by
        by_cases hd : d.id ∈ seen <;> by_cases htype : d.id = type <;> simp [hd, htype]
      have := ih hm
      omega

/-- What a type puts into the queue was counted among the unseen. -/
theorem length_queued_le (queue : List (TypeId × Nat)) (depth : Nat) {type : TypeId}
    {seen : List TypeId} (hseen : type ∉ seen) (htype : ∃ e, t.type? type = some e) :
    (queue ++ (t.parents type).map (·, depth + 1)).length + unseen (type :: seen) t.types ≤
      queue.length + unseen seen t.types := by
  obtain ⟨e, he⟩ := htype
  have hparents := length_parents he
  have hunseen := unseen_cons hseen (by simpa using List.find?_some he)
    (List.mem_of_find?_eq_some he)
  rw [List.length_append, List.length_map]
  omega

/-- The types in the queue are there, and so are those that are put into it. -/
theorem type?_of_queued {type : TypeId} {depth : Nat} {queue : List (TypeId × Nat)}
    (hq : ∀ q ∈ (type, depth) :: queue, ∃ e, t.type? q.1 = some e) :
    ∀ q ∈ queue ++ (t.parents type).map (·, depth + 1), ∃ e, t.type? q.1 = some e := by
  intro q hm
  rcases List.mem_append.mp hm with hm | hm
  · exact hq q (List.mem_cons_of_mem _ hm)
  · obtain ⟨parent, hparent, rfl⟩ := List.mem_map.mp hm
    exact type?_of_parent hparent

theorem hierarchyBound_eq (t : Target) : Eval.hierarchyBound t = 1 + unseen [] t.types := by
  rw [Eval.hierarchyBound, Nat.add_comm]
  congr 1
  induction t.types with
  | nil => rfl
  | cons e types ih =>
    simp only [unseen, List.not_mem_nil, ↓reduceIte, List.length_cons, List.flatMap_cons,
      List.length_append] at ih ⊢
    omega

end Target

/-! ### The walk -/

namespace Eval

/-- The calls that a walk over supertypes makes. -/
def walkCalls : List Call := [.typeName, .superclass, .interfaces]

variable {l : Link}

theorem typeName_run (h : l.Serves walkCalls) {type : TypeId} {e : TypeEntry}
    (he : l.target.type? type = some e) :
    (liftM (Remote.typeName type) : Eval String) l = .ok e.name l.counted :=
  Link.ask_answered (h.served _ (Nat.le_refl _) _ (by decide))
    (Target.typeName_of_type h.connected he)

theorem superclass_run {calls : List Call} (h : l.Serves calls) (hc : .superclass ∈ calls)
    {type : TypeId} {e : TypeEntry} (he : l.target.type? type = some e) :
    (liftM (Remote.superclass type) : Eval (Option TypeId)) l =
      .ok (e.superclass.bind l.target.typeNamed?) l.counted :=
  Link.ask_answered (h.served _ (Nat.le_refl _) _ hc) (by
    rw [Target.superclass, Target.checkType_of_type h.connected he]
    rfl)

theorem interfaces_run (h : l.Serves walkCalls) {type : TypeId} {e : TypeEntry}
    (he : l.target.type? type = some e) :
    (liftM (Remote.interfaces type) : Eval (List TypeId)) l =
      .ok (e.interfaces.filterMap l.target.typeNamed?) l.counted :=
  Link.ask_answered (h.served _ (Nat.le_refl _) _ (by decide)) (by
    rw [Target.interfaces, Target.checkType_of_type h.connected he]
    rfl)

/-- The walk ends before its steps run out: each one takes an entry from the queue, and only types
not seen before put some in. -/
theorem walkHierarchy_run {n : Nat} {seen : List TypeId} {queue : List (TypeId × Nat)}
    (h : l.Serves walkCalls) (hq : ∀ q ∈ queue, ∃ e, l.target.type? q.1 = some e)
    (hn : queue.length + Target.unseen seen l.target.types ≤ n) :
    ∃ l', walkHierarchy n seen queue l =
      .ok ((l.target.search n seen queue).map l.target.named) l' ∧ l.Asked l' := by
  induction n generalizing seen queue l with
  | zero =>
    have hnil : queue = [] := List.eq_nil_of_length_eq_zero (by omega)
    subst hnil
    exact ⟨l, rfl, .refl l⟩
  | succ n ih =>
    cases queue with
    | nil => exact ⟨l, rfl, .refl l⟩
    | cons front queue =>
      obtain ⟨type, depth⟩ := front
      have hrest : ∀ q ∈ queue, ∃ e, l.target.type? q.1 = some e :=
        fun q hm => hq q (List.mem_cons_of_mem _ hm)
      rw [List.length_cons] at hn
      unfold walkHierarchy Target.search
      split
      · exact ih h hrest (by omega)
      · rename_i hseen
        obtain ⟨e, he⟩ : ∃ e, l.target.type? type = some e := hq (type, depth) List.mem_cons_self
        have hqueued := Target.length_queued_le queue depth hseen ⟨e, he⟩
        have hfits : (queue ++ (l.target.parents type).map (·, depth + 1)).length +
            Target.unseen (type :: seen) l.target.types ≤ n := by
          omega
        have hqueue := Target.type?_of_queued hq
        have hname := typeName_run h he
        have hsuperclass := superclass_run (h.asked (.counted l)) (by decide) he
        have hinterfaces := interfaces_run (h.asked ((Link.Asked.counted l).trans (.counted _))) he
        have hasked : l.Asked l.counted.counted.counted :=
          ((Link.Asked.counted l).trans (.counted _)).trans (.counted _)
        obtain ⟨l', hwalk, hasked'⟩ := ih (h.asked hasked) hqueue hfits
        refine ⟨l', ?_, hasked.trans hasked'⟩
        rw [Target.parents_eq he] at hwalk
        rw [bind_run hname, bind_run hsuperclass, bind_run hinterfaces, List.map_cons,
          Target.named_of_type he, Target.parents_eq he]
        exact bind_run hwalk

/-- Whatever the types declare, the walk finds the type and its supertypes. -/
theorem hierarchy_run (h : l.Serves walkCalls) {type : TypeId} {e : TypeEntry}
    (he : l.target.type? type = some e) :
    ∃ l', hierarchy type l = .ok ((l.target.supertypes type).map l.target.named) l' ∧
      l.Asked l' := by
  refine walkHierarchy_run h (fun q hm => ?_) ?_
  · rw [List.mem_singleton.mp hm]
    exact ⟨e, he⟩
  · rw [Target.hierarchyBound_eq]
    exact Nat.le_refl _

end Eval

end Debugger
