import Mathlib.Data.List.Induction
import Mathlib.Data.Prod.Lex
import Debugger.Proofs.Hierarchy

/-!
Which overload is chosen. Each argument converts at a cost that the table of types determines; the
choice is the first method in the list among those of the least total. Leaving out a method that
was not chosen leaves the choice as it is.
-/

namespace Debugger

/-! ### The first of the least -/

section FirstLeast

variable {α κ : Type} [LinearOrder κ] (p : α → Prop) (key : α → κ)

/-- The element comes first among those with the property whose key is least. -/
def FirstLeast (xs : List α) (x : α) : Prop :=
  ∃ before after, xs = before ++ x :: after ∧ p x ∧ (∀ y ∈ before, p y → key x < key y) ∧
    ∀ y ∈ after, p y → key x ≤ key y

variable {p key} {xs : List α}

theorem FirstLeast.concat {x y : α} (h : FirstLeast p key xs x) (hy : p y → key x ≤ key y) :
    FirstLeast p key (xs ++ [y]) x := by
  obtain ⟨before, after, rfl, hx, hbefore, hafter⟩ := h
  refine ⟨before, after ++ [y], by simp, hx, hbefore, fun z hz hpz => ?_⟩
  rcases List.mem_append.mp hz with hz | hz
  · exact hafter z hz hpz
  · rw [List.mem_singleton.mp hz] at hpz ⊢
    exact hy hpz

theorem FirstLeast.le {x y : α} (h : FirstLeast p key xs x) (hy : y ∈ xs) (hp : p y) :
    key x ≤ key y := by
  obtain ⟨before, after, rfl, -, hbefore, hafter⟩ := h
  rcases List.mem_append.mp hy with hy | hy
  · exact (hbefore y hy hp).le
  · rcases List.mem_cons.mp hy with rfl | hy
    · exact le_rfl
    · exact hafter y hy hp

/-- There is only one such element. -/
theorem FirstLeast.unique {x y : α} (hx : FirstLeast p key xs x) (hy : FirstLeast p key xs y) :
    x = y := by
  obtain ⟨before, after, rfl, hpx, hbefore, hafter⟩ := hx
  obtain ⟨before', after', hsplit, hpy, hbefore', hafter'⟩ := hy
  rcases List.append_eq_append_iff.mp hsplit with ⟨between, rfl, hrest⟩ | ⟨between, rfl, hrest⟩
  · cases between with
    | nil => exact (List.cons.inj hrest).1
    | cons z between =>
      obtain ⟨rfl, rfl⟩ := List.cons.inj hrest
      have hlt : key y < key x := hbefore' x (by simp) hpx
      exact absurd hlt (not_lt.mpr (hafter y (by simp) hpy))
  · cases between with
    | nil => exact (List.cons.inj hrest).1.symm
    | cons z between =>
      obtain ⟨rfl, rfl⟩ := List.cons.inj hrest
      have hlt : key x < key y := hbefore y (by simp) hpy
      exact absurd hlt (not_lt.mpr (hafter' x (by simp) hpx))

variable (p key) [DecidablePred p]

/-- Takes an element in the place of the best one before it if it is better. -/
def improve (best : Option α) (x : α) : Option α :=
  if p x ∧ ∀ b ∈ best, key x < key b then some x else best

def firstLeast (xs : List α) : Option α :=
  xs.foldl (improve p key) none

variable {p key}

theorem firstLeast_concat (xs : List α) (x : α) :
    firstLeast p key (xs ++ [x]) = improve p key (firstLeast p key xs) x := by
  rw [firstLeast, List.foldl_append]
  rfl

variable (p key) in
/-- What the search keeps is the first of the least so far. -/
theorem firstLeast_found (xs : List α) :
    (firstLeast p key xs = none ∧ ∀ y ∈ xs, ¬ p y) ∨
      ∃ x, firstLeast p key xs = some x ∧ FirstLeast p key xs x := by
  induction xs using List.reverseRecOn with
  | nil => exact .inl ⟨rfl, fun _ hm => absurd hm List.not_mem_nil⟩
  | append_singleton xs y ih =>
    rw [firstLeast_concat, improve]
    rcases ih with ⟨hnone, hno⟩ | ⟨x, hx, hleast⟩
    · rw [hnone]
      by_cases hy : p y
      · rw [if_pos ⟨hy, nofun⟩]
        exact .inr ⟨y, rfl, xs, [], rfl, hy, fun z hz hpz => absurd hpz (hno z hz), nofun⟩
      · rw [if_neg fun h => hy h.1]
        refine .inl ⟨rfl, fun z hz => ?_⟩
        rcases List.mem_append.mp hz with hz | hz
        · exact hno z hz
        · rwa [List.mem_singleton.mp hz]
    · rw [hx]
      by_cases hbetter : p y ∧ key y < key x
      · rw [if_pos ⟨hbetter.1, fun b hb => Option.some.inj hb ▸ hbetter.2⟩]
        exact .inr ⟨y, rfl, xs, [], rfl, hbetter.1,
          fun z hz hpz => hbetter.2.trans_le (hleast.le hz hpz), nofun⟩
      · rw [if_neg fun h => hbetter ⟨h.1, h.2 x rfl⟩]
        exact .inr ⟨x, rfl, hleast.concat fun hy => not_lt.mp fun hlt => hbetter ⟨hy, hlt⟩⟩

/-- Elements without the property do not count. -/
theorem firstLeast_filter {q : α → Bool} (h : ∀ x, p x → q x = true) :
    firstLeast p key (xs.filter q) = firstLeast p key xs := by
  rw [firstLeast, List.foldl_filter, firstLeast]
  congr 1
  funext best x
  by_cases hx : p x
  · rw [if_pos (h x hx)]
  · rw [improve, if_neg fun hb : _ ∧ _ => hx hb.1, ite_self]

theorem firstLeast_eq_none_iff : firstLeast p key xs = none ↔ ∀ y ∈ xs, ¬ p y := by
  rcases firstLeast_found p key xs with ⟨hnone, hno⟩ | ⟨x, hx, hleast⟩
  · exact ⟨fun _ => hno, fun _ => hnone⟩
  · obtain ⟨before, after, hxs, hp, -⟩ := hleast
    rw [hx]
    exact ⟨nofun, fun hno => absurd hp (hno x (by simp [hxs]))⟩

theorem firstLeast_eq_some_iff {x : α} :
    firstLeast p key xs = some x ↔ FirstLeast p key xs x := by
  rcases firstLeast_found p key xs with ⟨hnone, hno⟩ | ⟨y, hy, hleast⟩
  · rw [hnone]
    refine ⟨nofun, fun h => ?_⟩
    obtain ⟨before, after, hxs, hp, -⟩ := h
    exact absurd hp (hno x (by simp [hxs]))
  · rw [hy]
    exact ⟨fun h => Option.some.inj h ▸ hleast, fun h => congrArg some (hleast.unique h)⟩

/-- Leaving out an element that is not taken, or that only repeats the one taken, changes
nothing. -/
theorem firstLeast_erase {before after : List α} {x : α}
    (h : firstLeast p key (before ++ x :: after) = some x → x ∈ before) :
    firstLeast p key (before ++ after) = firstLeast p key (before ++ x :: after) := by
  rcases firstLeast_found p key (before ++ x :: after) with
    ⟨hnone, hno⟩ | ⟨y, hy, hleast⟩
  · rw [hnone, firstLeast_eq_none_iff]
    intro z hz
    refine hno z ?_
    rw [List.mem_append] at hz ⊢
    exact hz.imp_right (List.mem_cons_of_mem x)
  · rw [hy, firstLeast_eq_some_iff]
    obtain ⟨front, back, hsplit, hpy, hfront, hback⟩ := hleast
    rcases List.append_eq_append_iff.mp hsplit with ⟨between, rfl, hrest⟩ | ⟨between, rfl, hrest⟩
    · cases between with
      | nil =>
        obtain ⟨rfl, rfl⟩ := List.cons.inj hrest
        rw [List.append_nil] at hfront
        exact absurd (hfront x (h hy) hpy) (lt_irrefl _)
      | cons z between =>
        obtain ⟨rfl, rfl⟩ := List.cons.inj hrest
        refine ⟨before ++ between, back, by simp, hpy, fun z hz => hfront z ?_, hback⟩
        rw [List.mem_append] at hz ⊢
        exact hz.imp_right (List.mem_cons_of_mem x)
    · cases between with
      | nil =>
        obtain ⟨rfl, rfl⟩ := List.cons.inj hrest
        rw [List.append_nil] at hy h
        exact absurd (hfront y (h hy) hpy) (lt_irrefl _)
      | cons z between =>
        obtain ⟨rfl, rfl⟩ := List.cons.inj hrest
        refine ⟨front, between ++ after, by simp, hpy, hfront, fun z hz => hback z ?_⟩
        refine List.mem_append.mpr ?_
        rw [List.mem_append] at hz
        exact hz.imp_right (List.mem_cons_of_mem x)

end FirstLeast

/-! ### Costs -/

namespace Cost

/-- Costs are compared by rank first. -/
def key (c : Cost) : ℕ ×ₗ ℕ :=
  toLex (c.rank, c.distance)

theorem less_iff {c d : Cost} : c.less d = true ↔ c.key < d.key := by
  rw [key, key, Prod.Lex.toLex_lt_toLex]
  simp [less]

theorem exact_le (c : Cost) : exact.key ≤ c.key := by
  rw [key, key, Prod.Lex.toLex_le_toLex]
  simp only [exact]
  omega

theorem rank_of_le {c : Cost} (h : c.key ≤ exact.key) : c.rank = 0 := by
  rw [key, key, Prod.Lex.toLex_le_toLex] at h
  simp only [exact] at h
  omega

/-- The sum of the ranks with the sum of the distances. -/
def sum : List Cost → Cost
  | [] => exact
  | c :: cs => c.add (sum cs)

theorem add_sum (total c : Cost) (cs : List Cost) :
    (total.add c).add (sum cs) = total.add (sum (c :: cs)) := by
  simp only [add, sum, Nat.add_assoc]

theorem sum_exact {cs : List Cost} (h : ∀ c ∈ cs, c = exact) : sum cs = exact := by
  induction cs with
  | nil => rfl
  | cons c cs ih =>
    obtain ⟨rfl, hcs⟩ := List.forall_mem_cons.mp h
    rw [sum, ih hcs]
    rfl

theorem rank_of_sum {cs : List Cost} (h : (sum cs).rank = 0) {c : Cost} (hc : c ∈ cs) :
    c.rank = 0 := by
  induction cs with
  | nil => contradiction
  | cons d cs ih =>
    obtain ⟨hd, hcs⟩ := Nat.add_eq_zero_iff.mp h
    rcases List.mem_cons.mp hc with rfl | hc
    · exact hd
    · exact ih hcs hc

theorem exact_add (c : Cost) : exact.add c = c := by
  simp only [exact, add, Nat.zero_add]

theorem ofPrimitive_self (k : PrimitiveKind) : ofPrimitive k k.name = some exact :=
  if_pos rfl

/-- A primitive converts at rank zero to its own kind only. -/
theorem ofPrimitive_rank {k : PrimitiveKind} {param : String} {c : Cost}
    (h : ofPrimitive k param = some c) (hrank : c.rank = 0) : k.name = param := by
  unfold ofPrimitive at h
  split at h
  · assumption
  · split at h
    · cases h
      contradiction
    · obtain ⟨distance, -, rfl⟩ := Option.map_eq_some_iff.mp h
      contradiction

theorem ofHierarchy_self (name : String) (above : List (String × Nat)) :
    ofHierarchy ((name, 0) :: above) name = some exact := by
  rw [ofHierarchy, List.lookup_cons_self]
  rfl

/-- An object converts at rank zero to its own type only. -/
theorem ofHierarchy_rank {name param : String} {above : List (String × Nat)} {c : Cost}
    (habove : ∀ x ∈ above, 0 < x.2) (h : ofHierarchy ((name, 0) :: above) param = some c)
    (hrank : c.rank = 0) : name = param := by
  unfold ofHierarchy at h
  split at h
  · rename_i hlookup
    obtain ⟨front, back, hsplit, -⟩ := List.lookup_eq_some_iff.mp hlookup
    cases front with
    | nil => exact congrArg Prod.fst (List.cons.inj hsplit).1
    | cons x front =>
      obtain ⟨-, hrest⟩ := List.cons.inj hsplit
      exact absurd (habove (param, 0) (by simp [hrest])) (Nat.lt_irrefl 0)
  · cases h
    contradiction
  · change ((PrimitiveKind.ofBox? name).bind fun k => _) = some c at h
    obtain ⟨k, -, h⟩ := Option.bind_eq_some_iff.mp h
    split at h
    · cases h
      contradiction
    · split at h <;> cases h
      contradiction

end Cost

namespace Target

variable (t : Target)

/-- The type of the object with this id. -/
def typeOf? (id : ObjectId) : Option TypeId :=
  match t.object? id with
  | some (.instance type _) | some (.array type _) => some type
  | some (.string _) => t.typeNamed? TypeName.string
  | none => none

/-- What it costs to pass a value as a parameter, read off the table of types. -/
def cost (param : String) : Value → Option Cost
  | .null => if (PrimitiveKind.ofName? param).isSome then none else some ⟨1, 0⟩
  | .text .. =>
    if param = TypeName.string then some .exact
    else if param ∈ TypeName.stringSupertypes then some (.supertype param 1)
    else none
  | .array id | .object id =>
    (t.typeOf? id).bind fun type => Cost.ofHierarchy ((t.supertypes type).map t.named) param
  | .range _ | .placeholder _ | .void => none
  | .primitive p => Cost.ofPrimitive p.kind param

/-- The method has a parameter for each argument, and each argument converts. -/
def Takes (args : List Value) (m : Method) : Prop :=
  m.params.length = args.length ∧ ∀ x ∈ args.zip m.params, (t.cost x.2 x.1).isSome

instance (args : List Value) : DecidablePred (t.Takes args) :=
  fun _ => inferInstanceAs (Decidable (_ ∧ _))

/-- What a call of the method costs in all. -/
def total (args : List Value) (m : Method) : Cost :=
  Cost.sum ((args.zip m.params).filterMap fun x => t.cost x.2 x.1)

/-- The total as calls are compared by it. -/
def price (args : List Value) (m : Method) : ℕ ×ₗ ℕ :=
  (t.total args m).key

/-- The name of the type that a value has itself, where a parameter can have the same. -/
def ownName? : Value → Option String
  | .text .. => some TypeName.string
  | .array id | .object id => ((t.typeOf? id).bind t.type?).map (·.name)
  | .primitive p => some p.kind.name
  | .null | .range _ | .placeholder _ | .void => none

/-- Each parameter is of the argument's own type. -/
def Matches (args : List Value) (m : Method) : Prop :=
  m.params.map some = args.map t.ownName?

instance (args : List Value) : DecidablePred (t.Matches args) :=
  fun _ => inferInstanceAs (Decidable (_ = _))

variable {t}

theorem supertypes_named {type : TypeId} {e : TypeEntry} (he : t.type? type = some e) :
    ∃ above, (t.supertypes type).map t.named = (e.name, 0) :: above ∧ ∀ x ∈ above, 0 < x.2 := by
  obtain ⟨above, habove, hpos⟩ := t.supertypes_eq type
  refine ⟨above.map t.named, by rw [habove, List.map_cons, named_of_type he], fun x hx => ?_⟩
  obtain ⟨entry, hm, rfl⟩ := List.mem_map.mp hx
  exact hpos entry hm

end Target

namespace Link

/-- No question about the types of these values goes wrong from now on. -/
structure TellsTypes (l : Link) (args : List Value) : Prop extends
    l.Serves [.objectType, .typeName, .superclass, .interfaces] where
  known : ∀ v ∈ args, ∀ id, v = .array id ∨ v = .object id →
    ∃ type e, l.target.typeOf? id = some type ∧ l.target.type? type = some e

end Link

namespace Target

variable {t : Target} {v : Value}

/-- A value converts to its own type at no cost. -/
theorem cost_own {param : String} (h : t.ownName? v = some param) :
    t.cost param v = some .exact := by
  cases v with
  | null | range | placeholder | void => contradiction
  | primitive p =>
    obtain rfl := Option.some.inj h
    exact Cost.ofPrimitive_self _
  | text =>
    obtain rfl := Option.some.inj h
    rw [cost, if_pos rfl]
  | array id | object id =>
    obtain ⟨e, he, rfl⟩ := Option.map_eq_some_iff.mp h
    obtain ⟨type, htype, he⟩ := Option.bind_eq_some_iff.mp he
    obtain ⟨above, habove, -⟩ := supertypes_named he
    change (t.typeOf? id).bind _ = _
    rw [htype, Option.bind_some, habove, Cost.ofHierarchy_self]

/-- What converts at rank zero is of the very type, the types of objects being known. -/
theorem own_of_rank {param : String} {c : Cost}
    (hknown : ∀ id, v = .array id ∨ v = .object id →
      ∃ type e, t.typeOf? id = some type ∧ t.type? type = some e)
    (h : t.cost param v = some c) (hrank : c.rank = 0) : t.ownName? v = some param := by
  cases v with
  | range | placeholder | void => contradiction
  | null =>
    simp only [cost] at h
    split at h <;> cases h
    contradiction
  | primitive p => exact congrArg some (Cost.ofPrimitive_rank h hrank)
  | text =>
    simp only [cost] at h
    split at h
    · exact congrArg some (Eq.symm ‹_›)
    · split at h <;> cases h
      contradiction
  | array id | object id =>
    obtain ⟨type, e, htype, he⟩ := hknown id (by simp)
    obtain ⟨above, habove, hpos⟩ := supertypes_named he
    simp only [cost, htype, Option.bind_some, habove] at h
    simp only [ownName?, htype, he, Option.bind_some, Option.map_some,
      Cost.ofHierarchy_rank hpos h hrank]

end Target

/-! ### The choice -/

theorem Target.objectType_of_known {t : Target} {id : ObjectId} {type : TypeId}
    (hc : t.connected = true) (h : t.typeOf? id = some type) :
    t.objectType id = .ok (type, t) := by
  unfold Target.typeOf? at h
  split at h
  · cases h
    rw [Target.objectType, Target.checkObject_of_object hc ‹_›]
    rfl
  · cases h
    rw [Target.objectType, Target.checkObject_of_object hc ‹_›]
    rfl
  · rw [Target.objectType, Target.checkObject_of_object hc ‹_›]
    simp only [bind, Except.bind, Target.ensureType, h]
    rfl
  · contradiction

namespace Link.TellsTypes

variable {l l' : Link} {args : List Value}

theorem asked (h : l.TellsTypes args) (h' : l.Asked l') : l'.TellsTypes args :=
  ⟨h.toServes.asked h', h'.target ▸ h.known⟩

theorem walk (h : l.TellsTypes args) : l.Serves Eval.walkCalls :=
  h.toServes.mono (by decide)

end Link.TellsTypes

namespace Eval

variable {l : Link} {args : List Value}

theorem objectType_run (h : l.TellsTypes args) {id : ObjectId} {type : TypeId}
    (htype : l.target.typeOf? id = some type) :
    (liftM (Remote.objectType id) : Eval TypeId) l = .ok type l.counted :=
  Link.order_answered (h.served _ le_rfl _ (by decide))
    (Target.objectType_of_known h.connected htype)

theorem conversionCost_run (h : l.TellsTypes args) {v : Value} (hv : v ∈ args) (param : String) :
    ∃ l', conversionCost param v l = .ok (l.target.cost param v) l' ∧ l.Asked l' := by
  cases v with
  | null | void | range | placeholder | primitive | text => exact ⟨l, rfl, .refl l⟩
  | array id | object id =>
    obtain ⟨type, e, htype, he⟩ := h.known _ hv id (by simp)
    obtain ⟨l', hhierarchy, hasked⟩ := hierarchy_run (h.asked (.counted l)).walk he
    refine ⟨l', ?_, (Link.Asked.counted l).trans hasked⟩
    simp only [conversionCost, Target.cost, htype, Option.bind_some]
    rw [bind_run (objectType_run h htype), bind_run hhierarchy]
    rfl

theorem totalCost_run (h : l.TellsTypes args) {pairs : List (Value × String)}
    (hpairs : ∀ x ∈ pairs, x.1 ∈ args) (start : Cost) :
    ∃ l', totalCost start pairs l = .ok
      (if ∀ x ∈ pairs, (l.target.cost x.2 x.1).isSome then
        some (start.add (Cost.sum (pairs.filterMap fun x => l.target.cost x.2 x.1)))
      else none) l' ∧ l.Asked l' := by
  induction pairs generalizing l start with
  | nil => exact ⟨l, by simp [totalCost, Cost.sum, Cost.exact, Cost.add]; rfl, .refl l⟩
  | cons pair pairs ih =>
    obtain ⟨v, param⟩ := pair
    obtain ⟨l₁, hone, hasked⟩ := conversionCost_run h (hpairs _ List.mem_cons_self) param
    rw [totalCost, bind_run hone]
    cases hcost : l.target.cost param v with
    | none => exact ⟨l₁, by simp [hcost]; rfl, hasked⟩
    | some c =>
      obtain ⟨l', hrest, hasked'⟩ := ih (h.asked hasked)
        (fun x hm => hpairs x (List.mem_cons_of_mem _ hm)) (start.add c)
      refine ⟨l', hrest.trans ?_, hasked.trans hasked'⟩
      simp only [List.forall_mem_cons, hcost, Option.isSome_some, true_and, hasked.target,
        List.filterMap_cons, Cost.add_sum]

theorem cheapest_run (h : l.TellsTypes args) {methods : List Method}
    (hfit : ∀ m ∈ methods, m.params.length = args.length) (best : Option Method) :
    ∃ l', cheapest args (best.map fun m => (l.target.total args m, m)) methods l = .ok
      (methods.foldl (improve (l.target.Takes args) (l.target.price args)) best) l' ∧
      l.Asked l' := by
  induction methods generalizing l best with
  | nil =>
    refine ⟨l, ?_, .refl l⟩
    cases best <;> rfl
  | cons m methods ih =>
    have hzip : ∀ x ∈ args.zip m.params, x.1 ∈ args := fun x hm => (List.of_mem_zip hm).1
    obtain ⟨l₁, htotal, hasked⟩ := totalCost_run h hzip .exact
    rw [Cost.exact_add] at htotal
    have hlater (best : Option Method) := ih (h.asked hasked)
      (fun m hm => hfit m (List.mem_cons_of_mem _ hm)) best
    rw [hasked.target] at hlater
    rw [cheapest, bind_run htotal, List.foldl_cons, improve]
    by_cases htakes : l.target.Takes args m
    · have hbetter : ((best.map fun m => (l.target.total args m, m)).all fun b =>
          (l.target.total args m).less b.1) = true ↔
          ∀ b ∈ best, l.target.price args m < l.target.price args b := by
        cases best <;> simp [Cost.less_iff, Target.price]
      rw [if_pos htakes.2]
      by_cases hless : ∀ b ∈ best, l.target.price args m < l.target.price args b
      · obtain ⟨l', hrest, hasked'⟩ := hlater (some m)
        refine ⟨l', ?_, hasked.trans hasked'⟩
        rw [if_pos ⟨htakes, hless⟩]
        exact (congrFun (if_pos (hbetter.mpr hless)) l₁).trans hrest
      · obtain ⟨l', hrest, hasked'⟩ := hlater best
        refine ⟨l', ?_, hasked.trans hasked'⟩
        rw [if_neg fun h => hless h.2]
        exact (congrFun (if_neg fun h => hless (hbetter.mp h)) l₁).trans hrest
    · obtain ⟨l', hrest, hasked'⟩ := hlater best
      refine ⟨l', ?_, hasked.trans hasked'⟩
      rw [if_neg fun hall => htakes ⟨hfit m List.mem_cons_self, hall⟩]
      rw [if_neg fun hbetter => htakes hbetter.1]
      exact hrest

/-- The choice is the first method that takes the arguments at the least total cost. -/
theorem selectOverload_run (h : l.TellsTypes args) (methods : List Method) :
    ∃ l', selectOverload methods args l = .ok
      (firstLeast (l.target.Takes args) (l.target.price args) methods) l' ∧
      l.Asked l' := by
  have hfit : ∀ m ∈ methods.filter (·.params.length = args.length),
      m.params.length = args.length := fun m hm => of_decide_eq_true (List.mem_filter.mp hm).2
  obtain ⟨l', hrun, hasked⟩ := cheapest_run h hfit none
  refine ⟨l', hrun.trans ?_, hasked⟩
  rw [← firstLeast_filter fun m hm => decide_eq_true hm.1]
  rfl

end Eval

namespace Target

variable {t : Target} {args : List Value} {m : Method}

theorem matches_iff : t.Matches args m ↔ m.params.length = args.length ∧
    ∀ x ∈ args.zip m.params, t.ownName? x.1 = some x.2 := by
  unfold Matches
  generalize m.params = params
  induction params generalizing args with
  | nil => cases args <;> simp
  | cons param params ih =>
    cases args with
    | nil => simp
    | cons v args =>
      rw [List.map_cons, List.map_cons, List.cons.injEq, ih, List.zip_cons_cons,
        List.forall_mem_cons, List.length_cons, List.length_cons, Nat.add_right_cancel_iff]
      tauto

theorem takes_of_matches (h : t.Matches args m) : t.Takes args m := by
  obtain ⟨hlength, hown⟩ := matches_iff.mp h
  exact ⟨hlength, fun x hx => by rw [cost_own (hown x hx)]; rfl⟩

theorem price_of_matches (h : t.Matches args m) : t.price args m = Cost.exact.key := by
  refine congrArg Cost.key (Cost.sum_exact fun c hc => ?_)
  obtain ⟨x, hx, hcost⟩ := List.mem_filterMap.mp hc
  rw [cost_own ((matches_iff.mp h).2 x hx)] at hcost
  exact (Option.some.inj hcost).symm

end Target

namespace Link.TellsTypes

variable {l : Link} {args : List Value} {m : Method}

theorem matches_of_rank (h : l.TellsTypes args) (htakes : l.target.Takes args m)
    (hrank : (l.target.total args m).rank = 0) : l.target.Matches args m := by
  refine Target.matches_iff.mpr ⟨htakes.1, fun x hx => ?_⟩
  obtain ⟨c, hc⟩ := Option.isSome_iff_exists.mp (htakes.2 x hx)
  exact Target.own_of_rank (h.known x.1 (List.of_mem_zip hx).1) hc
    (Cost.rank_of_sum hrank (List.mem_filterMap.mpr ⟨x, hx, hc⟩))

/-- Where a method has the very types of the arguments, the first such method is the first of the
least. -/
theorem firstLeast_matches (h : l.TellsTypes args) {methods : List Method} (hm : m ∈ methods)
    (hmatches : l.target.Matches args m) :
    firstLeast (l.target.Takes args) (l.target.price args) methods =
      methods.find? (l.target.Matches args) := by
  rcases firstLeast_found (l.target.Takes args) (l.target.price args) methods with
    ⟨-, hno⟩ | ⟨best, hbest, hleast⟩
  · exact absurd (Target.takes_of_matches hmatches) (hno m hm)
  · have hle := hleast.le hm (Target.takes_of_matches hmatches)
    rw [Target.price_of_matches hmatches] at hle
    obtain ⟨before, after, rfl, htakes, hbefore, -⟩ := hleast
    have hrank := Cost.rank_of_le hle
    rw [hbest, eq_comm, List.find?_eq_some_iff_append]
    refine ⟨decide_eq_true (h.matches_of_rank htakes hrank), before, after, rfl, fun y hy => ?_⟩
    by_contra hown
    have hown : l.target.Matches args y := by simpa using hown
    have hlt := hbefore y hy (Target.takes_of_matches hown)
    rw [Target.price_of_matches hown] at hlt
    exact absurd hlt (not_lt.mpr (Cost.exact_le _))

end Link.TellsTypes

namespace Eval

/-- Selection succeeds where the types of the arguments can be told. It takes no method only if none
has the right number of parameters with every argument convertible, and otherwise the first of those
whose ranks and, among equal ranks, distances add up to the least. A method with the very types of
the arguments is taken wherever it stands, and leaving out a method that is not taken does not
matter. -/
theorem overload_least {l : Link} {args : List Value} (h : l.TellsTypes args)
    (methods : List Method) :
    ∃ chosen l', selectOverload methods args l = .ok chosen l' ∧ l'.target = l.target ∧
      (chosen = none ↔ ∀ m ∈ methods, m.params.length = args.length →
        ∃ x ∈ args.zip m.params, l.target.cost x.2 x.1 = none) ∧
      (∀ m, chosen = some m ↔ ∃ before after, methods = before ++ m :: after ∧
        l.target.Takes args m ∧
        (∀ x ∈ before, l.target.Takes args x →
          l.target.price args m < l.target.price args x) ∧
        ∀ x ∈ after, l.target.Takes args x →
          l.target.price args m ≤ l.target.price args x) ∧
      (∀ m ∈ methods, l.target.Matches args m → chosen = methods.find? (l.target.Matches args) ∧
        ∃ best, chosen = some best ∧ best.params = m.params) ∧
      ∀ before m after, methods = before ++ m :: after → (chosen = some m → m ∈ before) →
        ∃ l'', selectOverload (before ++ after) args l = .ok chosen l'' := by
  obtain ⟨l', hrun, hasked⟩ := selectOverload_run h methods
  refine ⟨_, l', hrun, hasked.target, ?_, fun m => firstLeast_eq_some_iff, ?_, ?_⟩
  · rw [firstLeast_eq_none_iff]
    refine forall₂_congr fun m _ => ?_
    simp only [Target.Takes, not_and, not_forall, exists_prop, ← Option.ne_none_iff_isSome,
      ne_eq, not_not]
  · intro m hm hmatches
    have hfirst := h.firstLeast_matches hm hmatches
    have hsome : (methods.find? (l.target.Matches args)).isSome :=
      List.find?_isSome.mpr ⟨m, hm, decide_eq_true hmatches⟩
    obtain ⟨best, hbest⟩ := Option.isSome_iff_exists.mp hsome
    have hown : l.target.Matches args best := by simpa using List.find?_some hbest
    exact ⟨hfirst, best, hfirst.trans hbest,
      (List.map_inj_right fun _ _ => Option.some.inj).mp (hown.trans hmatches.symm)⟩
  · rintro before m after rfl hother
    obtain ⟨l'', hrun', -⟩ := selectOverload_run h (before ++ after)
    exact ⟨l'', by rw [hrun', firstLeast_erase hother]⟩

/-- The parameters of these methods take an object of the type `a.B` in four ways. The nearest
supertype wins over a farther one, over a widened and over a boxed number. -/
theorem overload_least_supertype :
    let type (id : TypeId) (name : String) (superclass : Option String)
        (interfaces : List String) : TypeEntry :=
      ⟨id, name, none, superclass, interfaces, [], [], [], [], true⟩
    let l : Link := { target := {
      types := [type 1 TypeName.object none [], type 2 "a.I" none [],
        type 3 "a.A" (some TypeName.object) ["a.I"], type 4 "a.B" (some "a.A") []]
      heap := [(5, .instance 4 [])] } }
    let method (id : MethodId) (params : List String) : Method := ⟨id, "m", params, "void", false⟩
    let methods := [method 6 [TypeName.object, "long"], method 7 ["a.I", "int"],
      method 8 ["a.A", "int"], method 9 ["a.B", "java.lang.Integer"]]
    let args : List Value := [.object 5, .int 1]
    l.TellsTypes args ∧
      ∃ l', selectOverload methods args l = .ok (some (method 8 ["a.A", "int"])) l' := by
  intro type l method methods args
  have h : l.TellsTypes args := by
    refine ⟨⟨rfl, fun _ _ _ _ => rfl⟩, fun v hv id hid => ?_⟩
    rcases List.mem_cons.mp hv with rfl | hv
    · obtain rfl : 5 = id := by simpa using hid
      exact ⟨4, _, rfl, rfl⟩
    · rw [List.mem_singleton.mp hv] at hid
      simp [Value.int] at hid
  refine ⟨h, ?_⟩
  obtain ⟨chosen, l', hrun, -, -, hleast, -⟩ := overload_least h methods
  have hchosen : chosen = some (method 8 ["a.A", "int"]) :=
    (hleast _).mpr ⟨methods.take 2, methods.drop 3, rfl, by decide +kernel, by decide +kernel,
      by decide +kernel⟩
  exact ⟨l', hchosen ▸ hrun⟩

end Eval

end Debugger
