import Mathlib.Order.Bounds.Basic
import Debugger.Proofs.Hierarchy
import Debugger.Proofs.Nesting

/-!
How far supertypes are from a type. Types are marked when they are taken from the queue, so the
search may hold one several times and meets its own past in a circle. Still it names every supertype
once, at the distance of the shortest way up.
-/

namespace Debugger

namespace Target

variable (t : Target)

/-- There is a way of `n` steps up from `start`, each to a superclass or an interface. -/
inductive Climbs (start : TypeId) : Nat → TypeId → Prop where
  | start : Climbs start 0 start
  | step {n : Nat} {type parent : TypeId} (way : Climbs start n type)
      (up : t.Extends type parent) : Climbs start (n + 1) parent

/-- The shortest way up has `n` steps. -/
def Distance (start : TypeId) (n : Nat) (type : TypeId) : Prop :=
  IsLeast {n | t.Climbs start n type} n

variable {t}

theorem mem_parents {type parent : TypeId} : parent ∈ t.parents type ↔ t.Extends type parent := by
  constructor
  · intro h
    unfold parents at h
    split at h
    · rename_i e he
      obtain ⟨name, hname, hparent⟩ := List.mem_filterMap.mp h
      exact ⟨e, he, name, hname, hparent⟩
    · contradiction
  · rintro ⟨e, he, name, hname, hparent⟩
    rw [parents, he]
    exact List.mem_filterMap.mpr ⟨name, hname, hparent⟩

/-! ### The queue -/

/-- What holds whenever an entry is taken: the queue has ways up that get longer towards its end, by
one at most, and everything above what was seen has been seen or waits at a distance to match. -/
structure Frontier (t : Target) (start : TypeId) (seen : List TypeId)
    (queue : List (TypeId × Nat)) : Prop where
  climbs : ∀ q ∈ queue, t.Climbs start q.2 q.1
  sorted : queue.Pairwise (·.2 ≤ ·.2)
  narrow : ∀ q ∈ queue, ∀ q' ∈ queue, q'.2 ≤ q.2 + 1
  begun : start ∈ seen ∨ (start, 0) ∈ queue
  closed : ∀ type ∈ seen, ∀ parent, t.Extends type parent →
    parent ∈ seen ∨ ∃ depth, (parent, depth) ∈ queue ∧
      ∀ n, t.Climbs start n type → depth ≤ n + 1

namespace Frontier

variable {start type : TypeId} {seen : List TypeId} {queue : List (TypeId × Nat)} {depth : Nat}

theorem initial (t : Target) (start : TypeId) : t.Frontier start [] [(start, 0)] where
  climbs q hq := by
    rw [List.mem_singleton.mp hq]
    exact .start
  sorted := List.pairwise_singleton _ _
  narrow q hq q' hq' := by
    rw [List.mem_singleton.mp hq']
    exact Nat.zero_le _
  begun := .inr List.mem_cons_self
  closed _ hm := absurd hm List.not_mem_nil

/-- Where a way leads has been seen, or the queue has an entry no longer than the way. -/
theorem covers (h : t.Frontier start seen queue) {n : Nat} (hway : t.Climbs start n type) :
    type ∈ seen ∨ ∃ q ∈ queue, q.2 ≤ n := by
  induction hway with
  | start => exact h.begun.imp_right fun hq => ⟨_, hq, Nat.le_refl 0⟩
  | step way up ih =>
    rcases ih with hseen | ⟨q, hq, hle⟩
    · refine (h.closed _ hseen _ up).imp_right ?_
      rintro ⟨depth, hq, hle⟩
      exact ⟨_, hq, hle _ way⟩
    · exact .inr ⟨q, hq, Nat.le_succ_of_le hle⟩

/-- A type that is taken for the first time is taken at its distance. -/
theorem distance (h : t.Frontier start seen ((type, depth) :: queue)) (hseen : type ∉ seen) :
    t.Distance start depth type := by
  refine ⟨h.climbs _ List.mem_cons_self, fun n hway => ?_⟩
  obtain ⟨q, hq, hle⟩ := (h.covers hway).resolve_left hseen
  rcases List.mem_cons.mp hq with rfl | hq
  · exact hle
  · exact Nat.le_trans (List.rel_of_pairwise_cons h.sorted hq) hle

/-- An entry whose type was seen is dropped. -/
theorem drop (h : t.Frontier start seen ((type, depth) :: queue)) (hseen : type ∈ seen) :
    t.Frontier start seen queue where
  climbs q hq := h.climbs q (List.mem_cons_of_mem _ hq)
  sorted := h.sorted.of_cons
  narrow q hq q' hq' := h.narrow q (List.mem_cons_of_mem _ hq) q' (List.mem_cons_of_mem _ hq')
  begun := by
    rcases h.begun with hstart | hstart
    · exact .inl hstart
    · rcases List.mem_cons.mp hstart with heq | hstart
      · exact .inl ((Prod.mk.inj heq).1 ▸ hseen)
      · exact .inr hstart
  closed below hbelow parent up := by
    rcases h.closed below hbelow parent up with hparent | ⟨k, hk, hle⟩
    · exact .inl hparent
    · rcases List.mem_cons.mp hk with heq | hk
      · exact .inl ((Prod.mk.inj heq).1 ▸ hseen)
      · exact .inr ⟨k, hk, hle⟩

/-- What is queued behind an entry is as far as it, or one step farther. -/
theorem behind (h : t.Frontier start seen ((type, depth) :: queue)) :
    ∀ q ∈ queue ++ (t.parents type).map (·, depth + 1), depth ≤ q.2 ∧ q.2 ≤ depth + 1 := by
  intro q hq
  rcases List.mem_append.mp hq with hq | hq
  · exact ⟨List.rel_of_pairwise_cons h.sorted hq,
      h.narrow _ List.mem_cons_self q (List.mem_cons_of_mem _ hq)⟩
  · obtain ⟨parent, -, rfl⟩ := List.mem_map.mp hq
    exact ⟨Nat.le_succ depth, Nat.le_refl _⟩

/-- The supertypes of a type that is taken for the first time go to the end. -/
theorem take (h : t.Frontier start seen ((type, depth) :: queue)) (hseen : type ∉ seen) :
    t.Frontier start (type :: seen) (queue ++ (t.parents type).map (·, depth + 1)) := by
  have hway : t.Climbs start depth type := h.climbs _ List.mem_cons_self
  have hrest : ∀ {below k}, (below, k) ∈ (type, depth) :: queue →
      below = type ∨ (below, k) ∈ queue ++ (t.parents type).map (·, depth + 1) := by
    intro below k hk
    rcases List.mem_cons.mp hk with heq | hk
    · exact .inl (Prod.mk.inj heq).1
    · exact .inr (List.mem_append_left _ hk)
  constructor
  case climbs =>
    intro q hq
    rcases List.mem_append.mp hq with hq | hq
    · exact h.climbs q (List.mem_cons_of_mem _ hq)
    · obtain ⟨parent, hparent, rfl⟩ := List.mem_map.mp hq
      exact hway.step (mem_parents.mp hparent)
  case sorted =>
    refine List.pairwise_append.mpr ⟨h.sorted.of_cons, ?_, fun q hq q' hq' => ?_⟩
    · exact List.pairwise_map.mpr (List.pairwise_of_forall fun _ _ => Nat.le_refl _)
    · obtain ⟨parent, -, rfl⟩ := List.mem_map.mp hq'
      exact (h.behind q (List.mem_append_left _ hq)).2
  case narrow =>
    intro q hq q' hq'
    have hlow := (h.behind q hq).1
    have hhigh := (h.behind q' hq').2
    omega
  case begun =>
    rcases h.begun with hstart | hstart
    · exact .inl (List.mem_cons_of_mem _ hstart)
    · refine (hrest hstart).imp_left ?_
      rintro rfl
      exact List.mem_cons_self
  case closed =>
    intro below hbelow parent up
    rcases List.mem_cons.mp hbelow with rfl | hbelow
    · refine .inr ⟨depth + 1, List.mem_append_right _ ?_, fun n hn => ?_⟩
      · exact List.mem_map_of_mem (mem_parents.mpr up)
      · exact Nat.succ_le_succ ((h.distance hseen).2 hn)
    · rcases h.closed below hbelow parent up with hparent | ⟨k, hk, hle⟩
      · exact .inl (List.mem_cons_of_mem _ hparent)
      · rcases hrest hk with rfl | hk
        · exact .inl List.mem_cons_self
        · exact .inr ⟨k, hk, hle⟩

end Frontier

/-! ### The search -/

/-- What a search finds besides what it had seen: each type above `start` once, at its distance, the
nearer ones first. -/
structure Finds (t : Target) (start : TypeId) (seen : List TypeId)
    (entries : List (TypeId × Nat)) : Prop where
  nodup : (entries.map Prod.fst).Nodup
  fresh : ∀ entry ∈ entries, entry.1 ∉ seen
  nearest : ∀ entry ∈ entries, t.Distance start entry.2 entry.1
  complete : ∀ n type, t.Climbs start n type → type ∈ seen ∨ type ∈ entries.map Prod.fst
  sorted : entries.Pairwise (·.2 ≤ ·.2)

section

variable {start type : TypeId} {seen : List TypeId} {queue entries : List (TypeId × Nat)}
  {depth : Nat}

/-- Behind an empty queue nothing is left. -/
theorem Frontier.over (h : t.Frontier start seen []) : t.Finds start seen [] where
  nodup := List.nodup_nil
  fresh _ hm := absurd hm List.not_mem_nil
  nearest _ hm := absurd hm List.not_mem_nil
  complete n type hway := by
    refine .inl ((h.covers hway).resolve_right ?_)
    rintro ⟨q, hq, -⟩
    exact List.not_mem_nil hq
  sorted := .nil

theorem Finds.cons (h : t.Finds start (type :: seen) entries) (hseen : type ∉ seen)
    (hnearest : t.Distance start depth type) (hleast : ∀ entry ∈ entries, depth ≤ entry.2) :
    t.Finds start seen ((type, depth) :: entries) where
  nodup := by
    refine List.nodup_cons.mpr ⟨fun hm => ?_, h.nodup⟩
    obtain ⟨entry, hentry, rfl⟩ := List.mem_map.mp hm
    exact h.fresh entry hentry List.mem_cons_self
  fresh entry hm := by
    rcases List.mem_cons.mp hm with rfl | hm
    · exact hseen
    · exact fun hold => h.fresh entry hm (List.mem_cons_of_mem _ hold)
  nearest entry hm := by
    rcases List.mem_cons.mp hm with rfl | hm
    · exact hnearest
    · exact h.nearest entry hm
  complete n above hway := by
    rcases h.complete n above hway with hm | hm
    · rcases List.mem_cons.mp hm with rfl | hm
      · exact .inr List.mem_cons_self
      · exact .inl hm
    · exact .inr (List.mem_cons_of_mem _ hm)
  sorted := List.pairwise_cons.mpr ⟨hleast, h.sorted⟩

/-- The search ends before its steps run out, as the walk does, and finds what is left. -/
theorem Frontier.finds {n : Nat} (h : t.Frontier start seen queue)
    (hq : ∀ q ∈ queue, ∃ e, t.type? q.1 = some e)
    (hn : queue.length + unseen seen t.types ≤ n) :
    t.Finds start seen (t.search n seen queue) := by
  induction n generalizing seen queue with
  | zero =>
    obtain rfl : queue = [] := List.eq_nil_of_length_eq_zero (by omega)
    exact h.over
  | succ n ih =>
    cases queue with
    | nil => exact h.over
    | cons front queue =>
      obtain ⟨type, depth⟩ := front
      rw [List.length_cons] at hn
      unfold search
      split
      · rename_i hseen
        exact ih (h.drop hseen) (fun q hm => hq q (List.mem_cons_of_mem _ hm)) (by omega)
      · rename_i hseen
        have hfits := length_queued_le queue depth hseen (hq _ List.mem_cons_self)
        refine (ih (h.take hseen) (type?_of_queued hq) (by omega)).cons hseen (h.distance hseen) ?_
        exact search_depth fun q hm => (h.behind q hm).1

/-- Between them the entries are the types above `start` with their distances. -/
theorem Finds.mem_iff (h : t.Finds start [] entries) :
    (type, depth) ∈ entries ↔ t.Distance start depth type := by
  constructor
  · exact h.nearest (type, depth)
  · intro hdistance
    obtain ⟨entry, hentry, rfl⟩ := List.mem_map.mp
      ((h.complete depth type hdistance.1).resolve_left List.not_mem_nil)
    rwa [hdistance.unique (h.nearest entry hentry)]

end

end Target

/-! ### The walk -/

namespace Eval

variable {l l' : Link} {n : Nat} {seen : List TypeId} {queue : List (TypeId × Nat)}

/-- What is answered about a type, if all three calls are. -/
theorem walk_answers {type : TypeId} {name : String} {parent : Option TypeId}
    {interfaces : List TypeId} {l₁ l₂ l₃ : Link}
    (hname : (liftM (Remote.typeName type) : Eval String) l = .ok name l₁)
    (hparent : (liftM (Remote.superclass type) : Eval (Option TypeId)) l₁ = .ok parent l₂)
    (hinterfaces : (liftM (Remote.interfaces type) : Eval (List TypeId)) l₂ = .ok interfaces l₃) :
    l₃.target = l.target ∧ ∃ e, l.target.type? type = some e ∧ e.name = name ∧
      l.target.parents type = parent.toList ++ interfaces := by
  obtain ⟨hname, h₁⟩ := Link.ask_ok hname
  obtain ⟨hparent, h₂⟩ := Link.ask_ok hparent
  obtain ⟨hinterfaces, h₃⟩ := Link.ask_ok hinterfaces
  rw [h₁] at hparent
  rw [h₂, h₁] at hinterfaces
  obtain ⟨e, he, hname⟩ := Target.typeName_ok hname
  obtain ⟨d, hd, rfl⟩ := Target.superclass_ok hparent
  obtain rfl := Option.some.inj (he.symm.trans hd)
  obtain ⟨d, hd, rfl⟩ := Target.interfaces_ok hinterfaces
  obtain rfl := Option.some.inj (he.symm.trans hd)
  exact ⟨h₃.trans (h₂.trans h₁), e, he, hname, Target.parents_eq he⟩

/-- Where the walk succeeds it names what the search finds. -/
theorem walkHierarchy_ok {names : List (String × Nat)}
    (h : walkHierarchy n seen queue l = .ok names l') :
    names = (l.target.search n seen queue).map l.target.named := by
  induction n generalizing seen queue l names with
  | zero =>
    cases queue with
    | nil =>
      cases h
      rfl
    | cons => contradiction
  | succ n ih =>
    cases queue with
    | nil =>
      cases h
      rfl
    | cons front queue =>
      obtain ⟨type, depth⟩ := front
      unfold walkHierarchy at h
      unfold Target.search
      split at h
      · rename_i hseen
        rw [if_pos hseen]
        exact ih h
      · rename_i hseen
        obtain ⟨name, l₁, hname, h⟩ := bind_ok h
        obtain ⟨parent, l₂, hparent, h⟩ := bind_ok h
        obtain ⟨interfaces, l₃, hinterfaces, h⟩ := bind_ok h
        obtain ⟨rest, l₄, hrest, h⟩ := bind_ok h
        cases h
        obtain ⟨hsame, e, he, rfl, hparents⟩ := walk_answers hname hparent hinterfaces
        rw [if_neg hseen, List.map_cons, Target.named_of_type he, hparents, ← hsame]
        exact congrArg _ (ih hrest)

/-- Whatever the link refuses, the walk has enough steps. -/
theorem walkHierarchy_ends (hn : queue.length + Target.unseen seen l.target.types ≤ n) :
    walkHierarchy n seen queue l ≠ .error .endless l' := by
  induction n generalizing seen queue l with
  | zero =>
    obtain rfl : queue = [] := List.eq_nil_of_length_eq_zero (by omega)
    exact fun h => nomatch h
  | succ n ih =>
    cases queue with
    | nil => exact fun h => nomatch h
    | cons front queue =>
      obtain ⟨type, depth⟩ := front
      rw [List.length_cons] at hn
      unfold walkHierarchy
      split
      · exact ih (by omega)
      · rename_i hseen
        intro h
        obtain ⟨name, l₁, hname, h⟩ := (ends_call _).endless h
        obtain ⟨parent, l₂, hparent, h⟩ := (ends_call _).endless h
        obtain ⟨interfaces, l₃, hinterfaces, h⟩ := (ends_call _).endless h
        obtain ⟨hsame, e, he, -, hparents⟩ := walk_answers hname hparent hinterfaces
        have hfits := Target.length_queued_le queue depth hseen ⟨e, he⟩
        rw [hparents, ← hsame] at hfits
        rcases error_of_bind h with hwalk | ⟨rest, l₄, -, hpure⟩
        · rw [← hsame] at hn
          exact ih (by omega) hwalk
        · cases hpure

/-- Whatever the types declare, circles included, the walk over the supertypes of a type ends. If
the calls are answered it succeeds. It then names every type that is a supertype over however many
steps, once, and with the number of steps of the shortest way there; the type itself comes first,
and nearer ones come before those farther away. -/
theorem hierarchy_distances (l : Link) (type : TypeId) :
    (∀ l', hierarchy type l ≠ .error .endless l') ∧
    (l.Serves walkCalls → (∃ e, l.target.type? type = some e) →
      ∃ names l', hierarchy type l = .ok names l') ∧
    ∀ names l', hierarchy type l = .ok names l' →
      ∃ entries : List (TypeId × Nat), names = entries.map l.target.named ∧
        entries.head? = some (type, 0) ∧ (entries.map Prod.fst).Nodup ∧
        (∀ above n, (above, n) ∈ entries ↔ l.target.Distance type n above) ∧
        entries.Pairwise (·.2 ≤ ·.2) := by
  refine ⟨fun l' => ?_, ?_, fun names l' h => ?_⟩
  · exact walkHierarchy_ends (Target.hierarchyBound_eq l.target).ge
  · rintro h ⟨e, he⟩
    obtain ⟨l', hrun, -⟩ := hierarchy_run h he
    exact ⟨_, l', hrun⟩
  · obtain ⟨-, -, e, he, -⟩ := hierarchy_ok h
    have hfinds : l.target.Finds type [] (l.target.supertypes type) := by
      refine (Target.Frontier.initial l.target type).finds (fun q hm => ?_)
        (Target.hierarchyBound_eq l.target).ge
      rw [List.mem_singleton.mp hm]
      exact ⟨e, he⟩
    refine ⟨_, walkHierarchy_ok h, rfl, hfinds.nodup, fun above n => hfinds.mem_iff,
      hfinds.sorted⟩

/-- A type above itself, with two ways of two steps to one interface. The name `a.Gone` leads
nowhere. -/
theorem hierarchy_distances_circle :
    let type (id : TypeId) (name : String) (superclass : Option String)
        (interfaces : List String) : TypeEntry :=
      ⟨id, name, none, superclass, interfaces, [], [], [], [], true⟩
    let l : Link := { target := {
      types := [type 1 "a.A" (some "a.B") ["a.I", "a.Gone"], type 2 "a.B" (some "a.A") ["a.J"],
        type 3 "a.I" none ["a.J", "a.I"], type 4 "a.J" none []] } }
    l.Serves walkCalls ∧ ∃ names l', hierarchy 1 l = .ok names l' ∧
      names = [("a.A", 0), ("a.B", 1), ("a.I", 1), ("a.J", 2)] ∧
      ∃ entries : List (TypeId × Nat), names = entries.map l.target.named ∧
        ∀ above n, (above, n) ∈ entries ↔ l.target.Distance 1 n above := by
  intro type l
  have h : l.Serves walkCalls := ⟨rfl, fun _ _ _ _ => rfl⟩
  obtain ⟨-, hruns, htells⟩ := hierarchy_distances l 1
  obtain ⟨names, l', hrun⟩ := hruns h ⟨_, rfl⟩
  obtain ⟨entries, hnames, -, -, hmem, -⟩ := htells names l' hrun
  have hnamed : (Link.outcome (hierarchy 1) l).1.toOption =
      some [("a.A", 0), ("a.B", 1), ("a.I", 1), ("a.J", 2)] := by
    decide +kernel
  have hsame : (Link.outcome (hierarchy 1) l).1.toOption = some names := by
    rw [Link.outcome, hrun]
    rfl
  exact ⟨h, names, l', hrun, Option.some.inj (hsame.symm.trans hnamed), entries, hnames, hmem⟩

end Eval

end Debugger
