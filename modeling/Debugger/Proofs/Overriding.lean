import Debugger.Proofs.Attaching
import Debugger.Proofs.Lineage

/-!
Methods by name: the types of a lineage, from the type itself upwards, each add those that are not
overridden below.
-/

namespace Debugger.Target

/-- The methods of a name that a type declares itself, in order. -/
def declared (t : Target) (name : String) (type : TypeId) : List Method :=
  ((t.type? type).map (·.methodsNamed name)).getD []

variable {t : Target} {type : TypeId} {e : TypeEntry}

theorem declared_of_type (he : t.type? type = some e) (name : String) :
    t.declared name type = e.methodsNamed name := by
  rw [declared, he]
  rfl

theorem flatMap_declared (t : Target) (name : String) (types : List TypeId) :
    types.flatMap (t.declared name) =
      (types.filterMap t.type?).flatMap (·.methodsNamed name) := by
  induction types with
  | nil => rfl
  | cons type types ih =>
    rw [List.flatMap_cons, List.filterMap_cons, declared, ih]
    cases t.type? type <;> rfl

/-- A method is added, or has the parameters of one that came before it. -/
theorem addFresh_covers (found ms later : List Method) :
    ∀ m ∈ ms, ∃ m' ∈ (ms ++ later).foldl addFresh found, m'.params = m.params ∧
      (m' ∈ found ∨ m' ∈ ms) := by
  obtain ⟨extra, heq, hsub, -, -, hall⟩ := foldl_addFresh ms found
  obtain ⟨more, hmore, -⟩ := foldl_addFresh later (found ++ extra)
  intro m hm
  obtain ⟨m', hm', hsame⟩ := hall m hm
  refine ⟨m', ?_, hsame, (List.mem_append.mp hm').imp id (hsub.subset ·)⟩
  rw [List.foldl_append, heq, hmore]
  exact List.mem_append_left _ hm'

/-- A method of the name that the type or a superclass declares is found, or one is that has its
parameters and is declared no further up. -/
theorem found_covers (he : t.type? type = some e) (name : String) {k : Nat} {above : TypeId}
    {m : Method} (h : t.ancestor? type k = some above) (hm : m ∈ t.declared name above) :
    ∃ j ≤ k, ∃ below, t.ancestor? type j = some below ∧ ∃ m' ∈ t.declared name below,
      m' ∈ ((t.lineage type).tail.flatMap (t.declared name)).foldl addFresh (t.declared name type) ∧
        m'.params = m.params := by
  obtain ⟨i, hi, hat⟩ := lineage_of_ancestor he h
  rw [lineage_cons he] at hat
  cases i with
  | zero =>
    obtain rfl : type = above := Option.some.inj hat
    obtain ⟨extra, heq, -⟩ :=
      foldl_addFresh ((t.lineage type).tail.flatMap (t.declared name)) (t.declared name type)
    exact ⟨0, Nat.zero_le k, type, rfl, m, hm, heq ▸ List.mem_append_left _ hm, rfl⟩
  | succ i =>
    -- What comes after the types up to this one has no say in what covers its methods.
    rw [← List.take_append_drop (i + 1) (t.lineage type).tail, List.flatMap_append]
    have hhere : m ∈ ((t.lineage type).tail.take (i + 1)).flatMap (t.declared name) :=
      List.mem_flatMap.mpr ⟨above, List.mem_of_getElem? (i := i) (by
        rw [List.getElem?_take_of_succ]
        exact hat), hm⟩
    obtain ⟨m', hm', hsame, hown | hup⟩ := addFresh_covers (t.declared name type) _
      (((t.lineage type).tail.drop (i + 1)).flatMap (t.declared name)) m hhere
    · exact ⟨0, Nat.zero_le k, type, rfl, m', hown, hm', hsame⟩
    · obtain ⟨below, hbelow, hdeclared⟩ := List.mem_flatMap.mp hup
      obtain ⟨j, hj⟩ := List.getElem?_of_mem hbelow
      obtain ⟨hj, hle⟩ : (t.lineage type).tail[j]? = some below ∧ j < i + 1 := by
        simpa [List.getElem?_take, and_comm] using hj
      refine ⟨j + 1, Nat.le_trans hle hi, below, ?_, m', hdeclared, hm', hsame⟩
      refine ((getElem?_lineage he).mp ?_).1
      rw [lineage_cons he]
      exact hj

/-- Looking for the methods of a name ends with an answer, whatever the types are called and whether
or not the superclasses go in a circle. First come the type's own methods, then inherited ones, in
the order of the chain of superclasses up to where it ends or comes to a type again, and for each
type in the order in which it declares them. A method that is declared anywhere on the chain is
among them, or one with its parameters is that is declared no further up; and no inherited one has
the parameters of another one. -/
theorem methodsByName_overrides (he : t.type? type = some e) (name : String) :
    ∃ inherited,
      t.methodsByName type name =
        (if t.connected then .ok (t.declared name type ++ inherited) else .error .disconnected) ∧
      inherited.Sublist ((t.lineage type).tail.flatMap (t.declared name)) ∧
      (∀ k above, (t.lineage type)[k]? = some above ↔
        t.ancestor? type k = some above ∧ ∀ j < k, t.ancestor? type j ≠ some above) ∧
      (∀ k above m, t.ancestor? type k = some above → m ∈ t.declared name above →
        ∃ j ≤ k, ∃ below, t.ancestor? type j = some below ∧ ∃ m' ∈ t.declared name below,
          m' ∈ t.declared name type ++ inherited ∧ m'.params = m.params) ∧
      inherited.Pairwise (·.params ≠ ·.params) ∧
      ∀ m ∈ t.declared name type, ∀ m' ∈ inherited, m.params ≠ m'.params := by
  obtain ⟨inherited, heq, hsub, hapart, hnew, -⟩ :=
    foldl_addFresh ((t.lineage type).tail.flatMap (t.declared name)) (t.declared name type)
  refine ⟨inherited, ?_, hsub, fun k above => getElem?_lineage he, ?_, hapart, hnew⟩
  · rw [← heq, declared_of_type he, flatMap_declared, ← inherited_eq]
    cases hc : t.connected with
    | false =>
      rw [methodsByName, checkType, checkConnected, hc]
      rfl
    | true =>
      rw [methodsByName, checkType_of_type hc he]
      rfl
  · intro k above m h hm
    rw [← heq]
    exact found_covers he name h hm

/-- Two types above each other, and a third with the name of the second, which nothing extends. -/
theorem methodsByName_overrides_circle :
    let f (id : MethodId) (param : String) : Method × Behaviour :=
      (⟨id, "f", [param], "void", false⟩, .returns .void)
    let type (id : TypeId) (name superclass : String) (methods : List (Method × Behaviour)) :
        TypeEntry := ⟨id, name, none, some superclass, [], [], methods, [], [], true⟩
    let first := type 1 "a.A" "a.B" [f 10 "int"]
    let t : Target := { types := [first,
      type 2 "a.B" "a.A" [f 20 "int", f 21 "long", f 22 "long"],
      type 3 "a.B" "a.A" [f 30 "char"]] }
    t.type? 1 = some first ∧ ∃ inherited,
      t.methodsByName 1 "f" = .ok ([(f 10 "int").1] ++ inherited) ∧
      inherited = [(f 21 "long").1] ∧
      ∀ k above m, t.ancestor? 1 k = some above → m ∈ t.declared "f" above →
        ∃ m' ∈ [(f 10 "int").1] ++ inherited, m'.params = m.params := by
  intro f type first t
  have he : t.type? 1 = some first := rfl
  obtain ⟨inherited, hruns, -, -, hcovers, -⟩ := methodsByName_overrides he "f"
  have hfound : t.methodsByName 1 "f" = .ok [(f 10 "int").1, (f 21 "long").1] := rfl
  refine ⟨he, inherited, hruns, ?_, fun k above m h hm => ?_⟩
  · have hsame : [(f 10 "int").1] ++ inherited = [(f 10 "int").1] ++ [(f 21 "long").1] :=
      Except.ok.inj (hruns.symm.trans hfound)
    exact List.append_cancel_left hsame
  · obtain ⟨-, -, -, -, m', -, hm', hsame⟩ := hcovers k above m h hm
    exact ⟨m', hm', hsame⟩

end Debugger.Target
