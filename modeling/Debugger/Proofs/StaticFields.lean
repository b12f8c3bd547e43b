import Debugger.Eval.Evaluate
import Debugger.Proofs.Lineage

/-!
Static fields are looked for in a type and then in one superclass after the other. The walk takes
note of nothing it passed: where the superclasses go in a circle that has no such field, it goes on
forever.
-/

namespace Debugger

namespace Target

/-- The static field of a name that a type declares itself. -/
def static? (t : Target) (type : TypeId) (name : String) : Option Datum :=
  (t.type? type).bind (·.static? name)

/-- The look-up is through `k` superclasses up: the type there has what was found or, if nothing
was, no superclass, and the types below it have nothing. -/
structure StopsAt (t : Target) (type : TypeId) (name : String) (k : Nat)
    (found : Option Datum) : Prop where
  below : ∀ j < k, ∀ passed, t.ancestor? type j = some passed → t.static? passed name = none
  here : ∃ last, t.ancestor? type k = some last ∧ t.static? last name = found ∧
    (found = none → t.superclass? last = none)

theorem staticField_of_type {t : Target} {type : TypeId} {e : TypeEntry} (name : String)
    (hc : t.connected = true) (he : t.type? type = some e) :
    t.staticField type name = .ok (t.static? type name) := by
  rw [staticField, checkType_of_type hc he, static?, he]
  rfl

section

variable {t : Target} {type : TypeId} {name : String} {e : TypeEntry} (he : t.type? type = some e)

include he

/-- Up to where it stops the look-up is within the lineage: only the last type it comes to may have
the field, or have no superclass. -/
theorem StopsAt.lt_length {k : Nat} {found : Option Datum} (h : t.StopsAt type name k found) :
    k < (t.lineage type).length := by
  obtain ⟨last, hlast, hfound, hup⟩ := h.here
  have hfirst : ∀ j < k, t.ancestor? type j ≠ some last := by
    intro j hj hearlier
    have hnone : found = none := hfound.symm.trans (h.below j hj last hearlier)
    obtain ⟨next, hnext⟩ := ancestor?_below hlast (Nat.succ_le_of_lt hj)
    rw [ancestor?, hearlier, Option.bind_some, hup hnone] at hnext
    contradiction
  exact (List.getElem?_eq_some_iff.mp ((getElem?_lineage he).mpr ⟨hlast, hfirst⟩)).1

omit he in
/-- A look-up that nothing stops finds a type to pass at any height. -/
theorem passes_of_not_stops (hno : ∀ k found, ¬ t.StopsAt type name k found) (k : Nat) :
    ∃ passed, t.ancestor? type k = some passed ∧ t.static? passed name = none := by
  induction k using Nat.strongRecOn with
  | ind k ih =>
    have hbelow : ∀ j < k, ∀ passed, t.ancestor? type j = some passed →
        t.static? passed name = none := by
      intro j hj passed hpassed
      obtain ⟨same, hsame, hnone⟩ := ih j hj
      exact Option.some.inj (hpassed.symm.trans hsame) ▸ hnone
    obtain ⟨last, hlast⟩ : ∃ last, t.ancestor? type k = some last := by
      cases k with
      | zero => exact ⟨type, rfl⟩
      | succ k =>
        obtain ⟨below, hbelow', hnone⟩ := ih k (Nat.lt_succ_self k)
        cases hup : t.superclass? below with
        | none =>
          exact absurd ⟨fun j hj => hbelow j (Nat.lt_succ_of_lt hj), below, hbelow', hnone,
            fun _ => hup⟩ (hno k none)
        | some parent => exact ⟨parent, by rw [ancestor?, hbelow', Option.bind_some, hup]⟩
    cases hfield : t.static? last name with
    | none => exact ⟨last, hlast, hfield⟩
    | some value =>
      exact absurd ⟨hbelow, last, hlast, hfield, fun h => absurd h (Option.some_ne_none value)⟩
        (hno k (some value))

/-- Then the superclasses go in a circle. -/
theorem circle_of_not_stops (hno : ∀ k found, ¬ t.StopsAt type name k found) :
    ∃ i j passed, i < j ∧ t.ancestor? type i = some passed ∧ t.ancestor? type j = some passed := by
  obtain ⟨passed, hpassed, -⟩ := passes_of_not_stops hno (t.lineage type).length
  obtain ⟨i, hi⟩ := List.getElem?_of_mem (mem_lineage he hpassed)
  exact ⟨i, _, passed, (List.getElem?_eq_some_iff.mp hi).1, ((getElem?_lineage he).mp hi).1,
    hpassed⟩

end

end Target

namespace Eval

/-- The calls that a look-up of a static field makes. -/
def lookUpCalls : List Call := [.staticField, .superclass]

/-- With `k` steps or more, but not with less, the walk comes out with what it `found`. -/
def TakesSteps (name : String) (type : TypeId) (l : Link) (k : Nat) (found : Option Datum) : Prop :=
  (∀ n < k, ∃ l', staticFieldFrom name n type l = .error .endless l') ∧
    ∃ l', l.Asked l' ∧ ∀ n, k ≤ n → staticFieldFrom name n type l = .ok found l'

variable {l : Link} {type : TypeId} {e : TypeEntry} {name : String}

theorem staticField_run (name : String) (h : l.Serves lookUpCalls)
    (he : l.target.type? type = some e) :
    (liftM (Remote.staticField type name) : Eval (Option Datum)) l =
      .ok (l.target.static? type name) l.counted :=
  Link.ask_answered (h.served _ (Nat.le_refl _) _ (by decide))
    (Target.staticField_of_type name h.connected he)

/-- A type without the field is passed. -/
theorem staticFieldFrom_pass (h : l.Serves lookUpCalls) (he : l.target.type? type = some e)
    (hnone : l.target.static? type name = none) (n : Nat) :
    staticFieldFrom name (n + 1) type l = match l.target.superclass? type with
      | some parent => staticFieldFrom name n parent l.counted.counted
      | none => .ok none l.counted.counted := by
  have hfield := staticField_run name h he
  have hparent : (liftM (Remote.superclass type) : Eval (Option TypeId)) l.counted =
      .ok (l.target.superclass? type) l.counted.counted := by
    rw [Target.superclass?_of_type he]
    exact superclass_run (h.asked (.counted l)) (by decide) he
  rw [hnone] at hfield
  rw [staticFieldFrom, bind_run hfield]
  dsimp only
  rw [bind_run hparent]
  cases l.target.superclass? type <;> rfl

/-- Past the types that have no such field the walk goes on from the one above them. -/
theorem staticFieldFrom_climbs (h : l.Serves lookUpCalls) (he : l.target.type? type = some e)
    {k : Nat} {last : TypeId} (hlast : l.target.ancestor? type k = some last)
    (hbelow : ∀ j < k, ∀ passed, l.target.ancestor? type j = some passed →
      l.target.static? passed name = none) :
    ∃ l', l.Asked l' ∧
      ∀ n, staticFieldFrom name (k + n) type l = staticFieldFrom name n last l' := by
  induction k generalizing l type e with
  | zero =>
    cases hlast
    exact ⟨l, .refl l, fun n => by rw [Nat.zero_add]⟩
  | succ k ih =>
    have hpass := staticFieldFrom_pass h he (hbelow 0 (Nat.succ_pos k) type rfl)
    rw [Target.ancestor?_succ] at hlast
    obtain ⟨parent, hparent, hlast⟩ := Option.bind_eq_some_iff.mp hlast
    have hone : l.target.ancestor? type 1 = some parent := hparent
    obtain ⟨d, hd⟩ := Target.type?_of_ancestor he hone
    have hasked : l.Asked l.counted.counted := (Link.Asked.counted l).trans (.counted _)
    obtain ⟨l', hasked', hclimbs⟩ := ih (h.asked hasked) hd hlast fun j hj passed hpassed =>
      hbelow (j + 1) (Nat.succ_lt_succ hj) passed (by
        rw [Target.ancestor?_succ, hparent]
        exact hpassed)
    refine ⟨l', hasked.trans hasked', fun n => ?_⟩
    rw [Nat.add_right_comm, hpass, hparent]
    exact hclimbs n

/-- At the last type one step is enough. -/
theorem staticFieldFrom_last (h : l.Serves lookUpCalls) (he : l.target.type? type = some e)
    {found : Option Datum} (hfound : l.target.static? type name = found)
    (hup : found = none → l.target.superclass? type = none) :
    ∃ l', l.Asked l' ∧ ∀ n, staticFieldFrom name (n + 1) type l = .ok found l' := by
  cases found with
  | none =>
    refine ⟨l.counted.counted, (Link.Asked.counted l).trans (.counted _), fun n => ?_⟩
    rw [staticFieldFrom_pass h he hfound, hup rfl]
  | some value =>
    have hfield := staticField_run name h he
    rw [hfound] at hfield
    exact ⟨l.counted, .counted l, fun n => bind_run hfield⟩

theorem takesSteps_of_stops (h : l.Serves lookUpCalls) (he : l.target.type? type = some e)
    {k : Nat} {found : Option Datum} (hstops : l.target.StopsAt type name k found) :
    TakesSteps name type l (k + 1) found := by
  obtain ⟨last, hlast, hfound, hup⟩ := hstops.here
  constructor
  · intro n hn
    obtain ⟨passed, hpassed⟩ := Target.ancestor?_below hlast (Nat.le_of_lt_succ hn)
    obtain ⟨l', -, hclimbs⟩ := staticFieldFrom_climbs h he hpassed fun j hj =>
      hstops.below j (Nat.lt_of_lt_of_le hj (Nat.le_of_lt_succ hn))
    exact ⟨l', hclimbs 0⟩
  · obtain ⟨d, hd⟩ := Target.type?_of_ancestor he hlast
    obtain ⟨l₁, hasked, hclimbs⟩ := staticFieldFrom_climbs h he hlast hstops.below
    rw [← hasked.target] at hd hfound hup
    obtain ⟨l₂, hasked', hends⟩ := staticFieldFrom_last (h.asked hasked) hd hfound hup
    refine ⟨l₂, hasked.trans hasked', fun n hn => ?_⟩
    obtain ⟨m, rfl⟩ := Nat.exists_eq_add_of_le hn
    rw [Nat.add_assoc, Nat.add_comm 1 m, hclimbs]
    exact hends m

/-- Where nothing stops the walk, no number of steps is enough. -/
theorem endless_of_not_stops (h : l.Serves lookUpCalls) (he : l.target.type? type = some e)
    (hno : ∀ k found, ¬ l.target.StopsAt type name k found) (n : Nat) :
    ∃ l', staticFieldFrom name n type l = .error .endless l' := by
  obtain ⟨last, hlast, -⟩ := Target.passes_of_not_stops hno n
  obtain ⟨l', -, hclimbs⟩ := staticFieldFrom_climbs h he hlast fun j _ passed hpassed => by
    obtain ⟨same, hsame, hnone⟩ := Target.passes_of_not_stops hno j
    exact Option.some.inj (hpassed.symm.trans hsame) ▸ hnone
  exact ⟨l', hclimbs 0⟩

/-- A look-up of a static field that stops somewhere comes to no type twice on its way there, takes
no more steps than there are types, and finds what the nearest type of the chain declares that
declares the name, if there is one. It stops unless no type of the chain declares the name and the
chain goes in a circle; then it never ends. -/
theorem staticField_nearest (h : l.Serves lookUpCalls) (he : l.target.type? type = some e)
    (name : String) :
    (∀ k found, l.target.StopsAt type name k found →
      k < l.target.types.length ∧
      (∀ i j, i < j → j ≤ k → l.target.ancestor? type i ≠ l.target.ancestor? type j) ∧
      TakesSteps name type l (k + 1) found ∧
      ∃ l', staticField type name l = .ok found l') ∧
    ((∀ k found, ¬ l.target.StopsAt type name k found) →
      (∀ k, ∃ passed, l.target.ancestor? type k = some passed ∧
        l.target.static? passed name = none) ∧
      (∃ i j passed, i < j ∧ l.target.ancestor? type i = some passed ∧
        l.target.ancestor? type j = some passed) ∧
      ∀ n, ∃ l', staticFieldFrom name n type l = .error .endless l') := by
  constructor
  · intro k found hstops
    have hlength := hstops.lt_length he
    have hk : k < l.target.types.length :=
      Nat.lt_of_lt_of_le hlength (Target.length_lineage_le he)
    have hsteps := takesSteps_of_stops h he hstops
    obtain ⟨l', -, hends⟩ := hsteps.2
    refine ⟨hk, fun i j hi hj => ?_, hsteps, l', hends _ (Nat.succ_le_succ (Nat.le_of_lt hk))⟩
    exact Target.ancestor?_ne (Nat.lt_of_le_of_lt hj hlength) hi
  · intro hno
    exact ⟨Target.passes_of_not_stops hno, Target.circle_of_not_stops he hno,
      endless_of_not_stops h he hno⟩

/-- Two types above each other: the second has the field. -/
theorem staticField_nearest_circle :
    let type (id : TypeId) (name superclass : String) (statics : List (String × Datum)) :
        TypeEntry := ⟨id, name, none, some superclass, [], [], [], [], statics, true⟩
    let limit : Datum := .primitive (.int 100)
    let l : Link := { target := {
      types := [type 1 "a.A" "a.B" [], type 2 "a.B" "a.A" [("LIMIT", limit)]] } }
    l.Serves lookUpCalls ∧ l.target.StopsAt 1 "LIMIT" 1 (some limit) ∧
      ∃ l', staticField 1 "LIMIT" l = .ok (some limit) l' := by
  intro type limit l
  have h : l.Serves lookUpCalls := ⟨rfl, fun _ _ _ _ => rfl⟩
  have hstops : l.target.StopsAt 1 "LIMIT" 1 (some limit) := by
    refine ⟨fun j hj passed hpassed => ?_, 2, rfl, rfl, fun h => absurd h (Option.some_ne_none _)⟩
    obtain rfl : j = 0 := by omega
    cases hpassed
    rfl
  obtain ⟨-, -, -, hfound⟩ := (staticField_nearest h rfl "LIMIT").1 1 _ hstops
  exact ⟨h, hstops, hfound⟩

/-- A type that is its own superclass and has no such field is passed again and again: evaluating an
unknown name on one of its frames does not end. -/
theorem staticField_passed_again :
    let own : TypeEntry := ⟨1, "a.A", none, some "a.A", [], [], [], [], [], true⟩
    let l : Link := { target := { types := [own], threads := [⟨2, true, [⟨3, 1, none, 3, []⟩]⟩] } }
    (∀ k, l.target.ancestor? 1 k = some 1) ∧
      (∀ n, ∃ l', staticFieldFrom "x" n 1 l = .error .endless l') ∧
      ∃ l', Scope.run ⟨2, 3, {}⟩ (.name "x") l = .error .endless l' := by
  intro own l
  have h : l.Serves lookUpCalls := ⟨rfl, fun _ _ _ _ => rfl⟩
  have he : l.target.type? 1 = some own := rfl
  have hround (k : Nat) : l.target.ancestor? 1 k = some 1 := by
    induction k with
    | zero => rfl
    | succ k ih =>
      rw [Target.ancestor?, ih]
      rfl
  have hno (k : Nat) (found : Option Datum) : ¬ l.target.StopsAt 1 "x" k found := by
    intro hstops
    obtain ⟨last, hlast, hfound, hup⟩ := hstops.here
    cases (hround k).symm.trans hlast
    cases hup (hfound.symm.trans rfl)
  have hends (n : Nat) : ∃ l', staticFieldFrom "x" n 1 l = .error .endless l' :=
    endless_of_not_stops h he hno n
  have hlocals : (liftM (Remote.visibleVariables 2 3) : Eval (List Variable)) l =
      .ok [] l.counted :=
    rfl
  have hthis : Scope.fieldOfThis ⟨2, 3, {}⟩ "x" l.counted = .ok none l.counted.counted :=
    rfl
  have htype : (liftM (Remote.frameType 2 3) : Eval TypeId) l.counted.counted =
      .ok 1 l.counted.counted.counted :=
    rfl
  have hasked : l.Asked l.counted.counted.counted :=
    ((Link.Asked.counted l).trans (.counted _)).trans (.counted _)
  obtain ⟨l', hfield⟩ : ∃ l', staticField 1 "x" l.counted.counted.counted = .error .endless l' :=
    endless_of_not_stops (h.asked hasked) he hno _
  refine ⟨hround, hends, l', ?_⟩
  change Scope.resolve ⟨2, 3, {}⟩ "x" l = _
  rw [Scope.resolve, if_neg (by decide), bind_run hlocals]
  simp only [List.any_nil, Bool.false_eq_true, ↓reduceIte]
  rw [bind_run hthis]
  dsimp only
  rw [bind_run htype, bind_error hfield]

end Eval

end Debugger
