import Debugger.Eval.Evaluate
import Debugger.Proofs.Repetition

/-!
Membership in arrays. Looking for a value among the elements of an array is comparing it with one
after the other, except that a comparison unboxes both sides first and the search does not.
-/

namespace Debugger

/-- The truth value that a value is. -/
def Value.truth? : Value → Option Bool
  | .primitive (.boolean b) => some b
  | _ => none

theorem Value.truth?_eq_some {v : Value} {b : Bool} (h : v.truth? = some b) : v = .bool b := by
  unfold truth? at h
  split at h
  · cases h
    rfl
  · contradiction

/-- A conversation whose outcome is a truth value has that value. -/
theorem Eval.ok_of_truth {x : Eval Value} {l : Link} {b : Bool}
    (h : (Link.outcome x l).1.toOption.bind Value.truth? = some b) :
    ∃ l', x l = .ok (.bool b) l' := by
  obtain ⟨v, hv, hb⟩ := Option.bind_eq_some_iff.mp h
  rw [← Value.truth?_eq_some hb]
  exact ⟨_, ok_of_outcome hv⟩

/-- Whether an object is the box of a primitive. -/
def Target.isBox (t : Target) (id : ObjectId) : Bool :=
  match t.object? id with
  | some (.instance type _) => (t.type? type).any fun e => (PrimitiveKind.ofBox? e.name).isSome
  | _ => false

/-- Whether a datum is the box of a primitive. -/
def Target.boxes (t : Target) : Datum → Bool
  | .object id => t.isBox id
  | .null | .void | .primitive _ | .string _ | .array _ => false

/-- Whether a value can be looked for among the elements as it would be compared with them: it is no
box, and if it is an object, then neither is an element. -/
def Target.Comparable (t : Target) (v : Value) (elements : List Datum) : Prop :=
  ∀ id, v = .object id → t.isBox id = false ∧ ∀ d ∈ elements, t.boxes d = false

namespace Target

variable {t : Target} {id : ObjectId} {type : TypeId} {elements : List Datum}
  (hcell : t.object? id = some (.array type elements))

include hcell

theorem checkArray_ok {found : TypeId × List Datum} (h : t.checkArray id = .ok found) :
    found = (type, elements) := by
  simp only [checkArray, checkObject, hcell, bind, Except.bind] at h
  split at h
  · contradiction
  · rename_i cell hchecked
    split at hchecked
    · contradiction
    · cases hchecked
      cases h
      rfl

theorem element_ok {i : Nat} {d : Datum} (h : t.element id i = .ok d) :
    elements[i]? = some d := by
  simp only [element, bind, Except.bind] at h
  split at h
  · contradiction
  · rename_i found hfound
    obtain rfl := checkArray_ok hcell hfound
    split at h
    · cases h
      assumption
    · contradiction

theorem arrayLength_ok {n : Nat} (h : t.arrayLength id = .ok n) : n = elements.length := by
  simp only [arrayLength, bind, Except.bind] at h
  split at h
  · contradiction
  · rename_i found hfound
    obtain rfl := checkArray_ok hcell hfound
    cases h
    rfl

end Target

namespace Ground

open Scope

variable {g : Ground} {scope : Scope} {l l' : Link}

/-! ### Values that are no boxes -/

/-- What a value that is no box holds is nothing. -/
theorem unbox?_plain (hl : g.Here l) {v : Value} {w : Option Value}
    (hv : ∀ id, v = .object id → (Target.life g.acts).isBox id = false)
    (h : scope.unbox? v l = .ok w l') : w = none ∧ g.Here l' := by
  cases v with
  | null | void | primitive | text | array | range | placeholder =>
    cases h
    exact ⟨rfl, hl⟩
  | object id =>
    have hf := Target.life_formed g.acts
    obtain ⟨string, hs⟩ := hf.typeNamed?_string
    obtain ⟨type, l₁, htype, h⟩ := Eval.bind_ok h
    obtain ⟨name, l₂, hname, h⟩ := Eval.bind_ok h
    have hl₁ := (asks_objectType id).here l type l₁ hl htype
    have hl₂ := (asks_typeName type).here l₁ name l₂ hl₁ hname
    have hs' : l.target.typeNamed? TypeName.string = some string := by rw [hl.target, hs]
    obtain ⟨-, cell, hcell, htype⟩ := Eval.objectType_ok hs' htype
    obtain ⟨e, he, rfl⟩ := Target.typeName_ok (Link.ask_ok hname).1
    rw [hl.target] at hcell
    rw [hl₁.target] at he
    cases hkind : PrimitiveKind.ofBox? e.name with
    | none =>
      simp only [hkind] at h
      cases h
      exact ⟨rfl, hl₂⟩
    | some kind =>
      obtain ⟨fields, rfl⟩ := hf.cell_of_box hs hcell htype he hkind
      have hbox := hv id rfl
      simp only [Target.isBox, hcell, he, Option.any_some, hkind, Option.isSome_some] at hbox
      contradiction

theorem unboxed_plain (hl : g.Here l) {v w : Value}
    (hv : ∀ id, v = .object id → (Target.life g.acts).isBox id = false)
    (h : scope.unboxed v l = .ok w l') : w = v ∧ g.Here l' := by
  obtain ⟨inner, l₁, hinner, h⟩ := Eval.bind_ok h
  cases h
  obtain ⟨rfl, hl'⟩ := unbox?_plain hl hv hinner
  exact ⟨rfl, hl'⟩

/-- An object that is no box is passed as it is, or not at all. -/
theorem asks_passArguments {id : ObjectId} (hid : (Target.life g.acts).isBox id = false)
    (params : List String) :
    g.Asks (scope.passArguments (([.object id] : List Value).zip params)) := by
  cases params with
  | nil => exact asks_pure []
  | cons param params =>
    by_cases hparam : (PrimitiveKind.ofName? param).isNone = true
    · have hobject (n : Nat) : scope.passArgument param n (.object id) = pure (.object id) := by
        unfold Scope.passArgument
        exact if_pos hparam
      have hpass : scope.passArguments (([.object id] : List Value).zip (param :: params)) =
          pure [.object id] := by
        funext l
        change (do
          let datum ← scope.passArgument param l.target.chainBound (.object id)
          return datum :: (← scope.passArguments [])) l = _
        rw [hobject]
        rfl
      rw [hpass]
      exact asks_pure _
    · refine asks_of_fails fun l data l₁ hl h => ?_
      obtain ⟨_, _, hget, h⟩ := Eval.bind_ok h
      cases hget
      obtain ⟨datum, l₂, hdatum, -⟩ := Eval.bind_ok h
      rw [Target.chainBound, Scope.passArgument, if_neg hparam] at hdatum
      obtain ⟨inner, l₃, hinner, hdatum⟩ := Eval.bind_ok hdatum
      obtain ⟨rfl, -⟩ := unbox?_plain hl (fun _ hv => by cases hv; exact hid) hinner
      obtain ⟨name, l₄, -, hthrow⟩ := Eval.bind_ok hdatum
      contradiction

/-! ### Comparisons -/

theorem equal_objects (i j : ObjectId) : scope.equal (.object i) (.object j) =
    if i = j then pure true
    else if scope.settings.allowInvocation then do
      return (← scope.invokeOn (.object i) "equals" [.object j]).truth? = some true
    else pure false := by
  simp only [Scope.equal]
  split
  · rfl
  · split
    · congr 1
      funext v
      cases v with
      | primitive p => cases p with
        | boolean b => cases b <;> rfl
        | byte | short | int | long | float | double | char => rfl
      | null | void | text | array | range | placeholder | object => rfl
    · rfl

theorem repeats_invokeOn (hthread : scope.thread = g.thread) (i : ObjectId) (name : String)
    {j : ObjectId} (hj : (Target.life g.acts).isBox j = false) :
    g.Repeats Similar (scope.invokeOn (.object i) name [.object j]) := by
  refine (Asks.bind (asks_objectType i) fun type => asks_pure (i, type)).then fun place => ?_
  refine (asks_methodsByName place.2 name).then fun methods => ?_
  refine (asks_selectOverload methods [.object j]).then fun best => ?_
  cases best with
  | none => exact fun _ _ _ _ h => nomatch h
  | some m =>
    refine (asks_ensureInvocable scope).then fun _ => ?_
    refine (asks_passArguments hj m.params).then fun data => ?_
    rw [hthread]
    exact repeats_invoke _ m.id data

/-- Comparing values again gives the same, unless the second is a box that would be unboxed for a
parameter. -/
theorem repeats_equal (hthread : scope.thread = g.thread) (v : Value) {w : Value}
    (hw : ∀ id, w = .object id → (Target.life g.acts).isBox id = false) :
    g.Repeats Eq (scope.equal v w) := by
  by_cases hobjects : ∃ i j, v = .object i ∧ w = .object j
  · obtain ⟨i, j, rfl, rfl⟩ := hobjects
    rw [equal_objects]
    split
    · exact (asks_pure true).repeats
    · split
      · refine (repeats_invokeOn hthread i "equals" (hw j rfl)).read fun a b hab => ?_
        obtain rfl | ⟨i, j, rfl, rfl⟩ := hab <;> rfl
      · exact (asks_pure false).repeats
  · unfold Scope.equal
    split
    case h_8 => exact absurd ⟨_, _, rfl, rfl⟩ hobjects
    all_goals exact (asks_pure _).repeats

/-- An object equals no value of another sort. -/
theorem equal_object {i : ObjectId} {w : Value} (hw : ∀ j, w ≠ .object j) :
    scope.equal (.object i) w = pure false := by
  cases w with
  | object j => exact absurd rfl (hw j)
  | null | void | primitive | text | array | range | placeholder => rfl

theorem equal_object_right {v : Value} {j : ObjectId} (hv : ∀ i, v ≠ .object i) :
    scope.equal v (.object j) = pure false := by
  cases v with
  | object i => exact absurd rfl (hv i)
  | null | void | primitive | text | array | range | placeholder => rfl

/-! ### The search -/

/-- The value of an element of an array. -/
def elementAt (array : ObjectId) (i : Nat) : Eval Value := do
  Eval.ofDatum (← Remote.element array i)

theorem asks_elementAt (array : ObjectId) (i : Nat) : g.Asks (elementAt array i) :=
  (asks_element array i).bind fun d => asks_ofDatum d

theorem elementAt_ok {array : ObjectId} {type : TypeId} {elements : List Datum} {i : Nat}
    (hcell : (Target.life g.acts).object? array = some (.array type elements)) (hl : g.Here l)
    {item : Value} (h : elementAt array i l = .ok item l') :
    ∃ d l₁, elements[i]? = some d ∧ Eval.ofDatum d l₁ = .ok item l' := by
  obtain ⟨d, l₁, hd, h⟩ := Eval.bind_ok h
  refine ⟨d, l₁, Target.element_ok hcell ?_, h⟩
  rw [← hl.target]
  exact (Link.ask_ok hd).1

theorem arrayLength_ok {array : ObjectId} {type : TypeId} {elements : List Datum} {n : Nat}
    (hcell : (Target.life g.acts).object? array = some (.array type elements)) (hl : g.Here l)
    (h : (liftM (Remote.arrayLength array) : Eval Nat) l = .ok n l') : n = elements.length := by
  refine Target.arrayLength_ok hcell ?_
  rw [← hl.target]
  exact (Link.ask_ok h).1

/-- The length of the array can be had. -/
def Told (g : Ground) (array : ObjectId) : Prop :=
  ∃ n l l', g.Here l ∧ (liftM (Remote.arrayLength array) : Eval Nat) l = .ok n l'

/-- Whether an element of an array equals a value, as it is. -/
def elementIs (scope : Scope) (array : ObjectId) (v : Value) (i : Nat) : Eval Bool := do
  scope.equal (← elementAt array i) v

/-- What the search finds out about the element at an index, whenever it comes there. -/
def Finds (g : Ground) (scope : Scope) (array : ObjectId) (v : Value) (i : Nat) (b : Bool) :
    Prop :=
  ∀ l, g.Later l → ∃ l', elementIs scope array v i l = .ok b l' ∧ g.Later l'

/-- Where nothing has to be asked to compare an element, the search finds just that. -/
theorem finds_pure {array : ObjectId} {item v : Value} {i : Nat} {b : Bool}
    (hitem : elementAt array i l = .ok item l') (hl : g.Here l)
    (hequal : scope.equal item v = pure b) : g.Finds scope array v i b := by
  intro l₁ hl₁
  obtain ⟨_, l₂, hitem', rfl, hl₂⟩ := (asks_elementAt array i).repeats l _ l' hl hitem l₁ hl₁
  refine ⟨l₂, ?_, hl₂⟩
  rw [elementIs, Eval.bind_run hitem', hequal]
  rfl

/-- What one comparison has found the search finds. -/
theorem finds_of_equal {array : ObjectId} {item v : Value} {i : Nat} {b : Bool} {l₁ l₂ : Link}
    (hthread : scope.thread = g.thread)
    (hv : ∀ id, v = .object id → (Target.life g.acts).isBox id = false)
    (hitem : elementAt array i l₁ = .ok item l₂) (hl₁ : g.Here l₁)
    (hequal : scope.equal item v l = .ok b l') (hl : g.Here l) : g.Finds scope array v i b := by
  intro l₃ hl₃
  obtain ⟨_, l₄, hitem', rfl, hl₄⟩ :=
    (asks_elementAt array i).repeats l₁ item l₂ hl₁ hitem l₃ hl₃
  obtain ⟨_, l₅, hequal', rfl, hl₅⟩ := repeats_equal hthread item hv l b l' hl hequal l₄ hl₄
  exact ⟨l₅, (Eval.bind_run hitem').trans hequal', hl₅⟩

theorem searchArray_succ (array : ObjectId) (v : Value) (count index : Nat) :
    scope.searchArray array v (count + 1) index = (do
      if ← elementIs scope array v index then return true
      scope.searchArray array v count (index + 1)) := by
  simp only [Scope.searchArray, elementIs, elementAt, bind_assoc]

/-- The search finds what it finds at one of the indices. -/
theorem searchArray_run {array : ObjectId} {v : Value} {found : Nat → Bool} {count index : Nat}
    (h : ∀ i, index ≤ i → i < index + count → g.Finds scope array v i (found i)) (hl : g.Later l) :
    ∃ b l', scope.searchArray array v count index l = .ok b l' ∧ g.Later l' ∧
      (b = true ↔ ∃ i, index ≤ i ∧ i < index + count ∧ found i = true) := by
  induction count generalizing index l with
  | zero =>
    refine ⟨false, l, rfl, hl, iff_of_false Bool.false_ne_true ?_⟩
    rintro ⟨i, hi, hlt, -⟩
    omega
  | succ count ih =>
    obtain ⟨l₁, hrun, hl₁⟩ := h index (Nat.le_refl index) (by omega) l hl
    rw [searchArray_succ, Eval.bind_run hrun]
    cases hfound : found index with
    | true =>
      refine ⟨true, l₁, rfl, hl₁, ?_⟩
      exact iff_of_true rfl ⟨index, Nat.le_refl index, by omega, hfound⟩
    | false =>
      have hrest (i : Nat) (hi : index + 1 ≤ i) (hlt : i < index + 1 + count) :
          g.Finds scope array v i (found i) :=
        h i (by omega) (by omega)
      obtain ⟨b, l₂, hsearch, hl₂, hb⟩ := ih hrest hl₁
      refine ⟨b, l₂, hsearch, hl₂, hb.trans ⟨?_, ?_⟩⟩
      · rintro ⟨i, hi, hlt, htrue⟩
        exact ⟨i, by omega, by omega, htrue⟩
      · rintro ⟨i, hi, hlt, htrue⟩
        have hne : i ≠ index := by
          rintro rfl
          rw [hfound] at htrue
          contradiction
        exact ⟨i, by omega, by omega, htrue⟩

end Ground

open Syntax

/-- The comparison of an element of an array with a value. -/
def elementEquals (array e : Expr) (i : Nat) : Expr :=
  .binary .eq (.index array (.literal (.long (Int64.ofNat i)))) e

namespace Ground

variable {g : Ground} {scope : Scope} {hole : String → Eval Value} {l l' : Link}

/-- An expression that evaluates to a value and changes nothing. -/
def Denotes (g : Ground) (scope : Scope) (hole : String → Eval Value) (e : Expr) (v : Value) :
    Prop :=
  ∀ l, g.Here l → ∃ l', scope.evaluate hole e l = .ok v l' ∧ g.Here l'

theorem Denotes.ok {e : Expr} {v w : Value} (he : g.Denotes scope hole e v) (hl : g.Here l)
    (h : scope.evaluate hole e l = .ok w l') : w = v ∧ g.Here l' := by
  obtain ⟨l₁, hrun, hl₁⟩ := he l hl
  cases hrun.symm.trans h
  exact ⟨rfl, hl₁⟩

/-- A local variable denotes its value, unless asking for it is refused. -/
theorem denotes_local {name : String} {frame : Frame} {loc : Local} {v : Value}
    (hnames : g.refuses .visibleVariables = none) (hvalues : g.refuses .variableValue = none)
    (hframe : (Target.life g.acts).checkFrame scope.thread scope.frame = .ok frame)
    (hloc : frame.locals.find? (·.name = name) = some loc) (hname : name ≠ "this")
    (hread : ∀ l, g.Here l → ∃ l', Eval.ofDatum loc.value l = .ok v l' ∧ g.Here l') :
    g.Denotes scope hole (.name name) v := by
  intro l hl
  have hask {c : Call} (hc : g.refuses c = none) {l : Link} (hl : g.Here l) :
      l.refuses l.calls c = none := by
    rw [hl.refuses]
    exact hc
  have hl₁ : g.Here l.counted := hl.of_eq rfl rfl
  have hvisible : (liftM (Remote.visibleVariables scope.thread scope.frame) : Eval _) l =
      .ok (frame.locals.map fun v => ⟨v.name, v.type⟩) l.counted :=
    Link.ask_answered (hask hnames hl) (by rw [hl.target, Target.visibleVariables, hframe]; rfl)
  have hvalue : (liftM (Remote.variableValue scope.thread scope.frame name) : Eval _) l.counted =
      .ok loc.value l.counted.counted :=
    Link.ask_answered (hask hvalues hl₁) (by
      rw [hl₁.target, Target.variableValue, hframe]
      simp only [bind, Except.bind, hloc]
      rfl)
  have hany : (frame.locals.map fun v => (⟨v.name, v.type⟩ : Variable)).any (·.name = name) := by
    rw [List.any_map, List.any_eq_true]
    exact ⟨loc, List.mem_of_find?_eq_some hloc, by simpa using List.find?_some hloc⟩
  obtain ⟨l', hrun, hl'⟩ := hread l.counted.counted (hl₁.of_eq rfl rfl)
  refine ⟨l', ?_, hl'⟩
  rw [Scope.evaluate, Scope.resolve, if_neg hname, Eval.bind_run hvisible, if_pos hany,
    Eval.bind_run hvalue, hrun]

/-- What an index expression does: it asks for the length of the array, then for the element. -/
theorem index_ok {array : Expr} {id : ObjectId} {item : Value} {i : Nat}
    (hi : i < Nat.pow 2 63) (ha : g.Denotes scope hole array (.array id)) (hl : g.Here l)
    (h : scope.evaluate hole (.index array (.literal (.long (Int64.ofNat i)))) l = .ok item l') :
    ∃ n l₁ l₂, g.Here l₁ ∧ (liftM (Remote.arrayLength id) : Eval Nat) l₁ = .ok n l₂ ∧ g.Here l₂ ∧
      elementAt id i l₂ = .ok item l' := by
  obtain ⟨a, l₁, harray, h⟩ := Eval.bind_ok h
  obtain ⟨n, l₂, hn, h⟩ := Eval.bind_ok h
  cases hn
  obtain ⟨rfl, hl₁⟩ := ha.ok hl harray
  obtain ⟨n, l₃, hn, h⟩ := Eval.bind_ok h
  cases hn
  obtain ⟨n, l₄, hn, h⟩ := Eval.bind_ok h
  cases hn
  obtain ⟨length, l₅, hlength, h⟩ := Eval.bind_ok h
  have hl₅ := (asks_arrayLength id).here _ _ _ hl₁ hlength
  have htoInt : (Int64.ofNat i).toInt = i := Int64.toInt_ofNat_of_lt hi
  simp only [htoInt] at h
  split at h
  · obtain ⟨_, _, hthrow, -⟩ := Eval.bind_ok h
    contradiction
  · exact ⟨length, l₁, l₅, hl₁, hlength, hl₅, h⟩

/-- What a comparison with an element has done. -/
theorem elementEquals_ok {array e : Expr} {id : ObjectId} {v result : Value} {i : Nat}
    (hi : i < Nat.pow 2 63) (ha : g.Denotes scope hole array (.array id))
    (he : g.Denotes scope hole e v) (hl : g.Here l)
    (h : scope.evaluate hole (elementEquals array e i) l = .ok result l') :
    ∃ item l₁ l₂ l₃, g.Here l₁ ∧ elementAt id i l₁ = .ok item l₂ ∧ g.Here l₃ ∧
      scope.binary .eq item v l₃ = .ok result l' := by
  obtain ⟨item, l₂, hitem, h⟩ := Eval.bind_ok h
  obtain ⟨w, l₃, hw, h⟩ := Eval.bind_ok h
  obtain ⟨-, -, l₁, -, -, hl₁, hitem⟩ := index_ok hi ha hl hitem
  obtain ⟨rfl, hl₃⟩ := he.ok ((asks_elementAt id i).here l₁ item l₂ hl₁ hitem) hw
  exact ⟨item, l₁, l₂, l₃, hl₁, hitem, hl₃, h⟩

/-- Of values that are no boxes a comparison compares just these. -/
theorem equal_of_binary {v w result : Value}
    (hv : ∀ id, v = .object id → (Target.life g.acts).isBox id = false)
    (hw : ∀ id, w = .object id → (Target.life g.acts).isBox id = false) (hl : g.Here l)
    (h : scope.binary .eq v w l = .ok result l') :
    ∃ b l₁, g.Here l₁ ∧ scope.equal v w l₁ = .ok b l' ∧ result = .bool b := by
  obtain ⟨left, l₁, hleft, hrest⟩ := Eval.bind_ok h
  obtain ⟨right, l₂, hright, hop⟩ := Eval.bind_ok hrest
  obtain ⟨rfl, hl₁⟩ := unboxed_plain hl hv hleft
  obtain ⟨rfl, hl₂⟩ := unboxed_plain hl₁ hw hright
  obtain ⟨b, hequal, rfl⟩ := Eval.map_ok hop
  exact ⟨b, l₂, hl₂, hequal, rfl⟩

/-- An array and a value to be looked for in it, as expressions denote them. -/
structure Searched (g : Ground) (scope : Scope) (hole : String → Eval Value) (a e : Expr)
    (id : ObjectId) (elements : List Datum) (v : Value) : Prop where
  thread : scope.thread = g.thread
  cell : ∃ type, (Target.life g.acts).object? id = some (.array type elements)
  length : elements.length ≤ Nat.pow 2 63
  array : g.Denotes scope hole a (.array id)
  value : g.Denotes scope hole e v

/-- The value can be compared with the elements as the search compares it. -/
structure Lookup (g : Ground) (scope : Scope) (hole : String → Eval Value) (a e : Expr)
    (id : ObjectId) (elements : List Datum) (v : Value) : Prop
    extends Searched g scope hole a e id elements v where
  comparable : (Target.life g.acts).Comparable v elements

/-- Every element can be compared with the value. -/
def AllCompare (scope : Scope) (hole : String → Eval Value) (a e : Expr) (elements : List Datum)
    (l : Link) : Prop :=
  ∀ i < elements.length, ∃ result l',
    scope.evaluate hole (elementEquals a e i) l = .ok result l'

namespace Searched

variable {a e : Expr} {id : ObjectId} {elements : List Datum} {v : Value}
  (h : g.Searched scope hole a e id elements v)

include h

/-- What a comparison with an element that succeeds has read and compared. -/
theorem compared {result : Value} {i : Nat} {d : Datum} (hd : elements[i]? = some d)
    (hl : g.Here l) (hrun : scope.evaluate hole (elementEquals a e i) l = .ok result l') :
    ∃ item l₀ l₁ l₂ l₃, g.Here l₁ ∧ elementAt id i l₁ = .ok item l₂ ∧
      Eval.ofDatum d l₀ = .ok item l₂ ∧ g.Here l₃ ∧
      scope.binary .eq item v l₃ = .ok result l' := by
  obtain ⟨type, hcell⟩ := h.cell
  have hi := (List.getElem?_eq_some_iff.mp hd).1
  obtain ⟨item, l₁, l₂, l₃, hl₁, hitem, hl₃, hrun⟩ :=
    elementEquals_ok (Nat.lt_of_lt_of_le hi h.length) h.array h.value hl hrun
  obtain ⟨d', l₀, hd', hread⟩ := elementAt_ok hcell hl₁ hitem
  obtain rfl : d = d' := Option.some.inj (hd.symm.trans hd')
  exact ⟨item, l₀, l₁, l₂, l₃, hl₁, hitem, hread, hl₃, hrun⟩

/-- Evaluating a membership comes down to the search, once the length of the array is told. -/
theorem contains_searches (hl : g.Here l) (htold : g.Told id) :
    ∃ l₁, g.Here l₁ ∧ scope.evaluate hole (.contains e a false) l =
      (.bool <$> scope.searchArray id v elements.length 0) l₁ := by
  obtain ⟨type, hcell⟩ := h.cell
  obtain ⟨n, l₁, l₂, hl₁, hn⟩ := htold
  obtain ⟨l₃, hv, hl₃⟩ := h.value l hl
  obtain ⟨l₄, hid, hl₄⟩ := h.array l₃ hl₃
  obtain ⟨_, l₅, hn', rfl, -⟩ := (asks_arrayLength id).repeats l₁ n l₂ hl₁ hn l₄ hl₄.later
  obtain rfl := arrayLength_ok hcell hl₄ hn'
  have hcontains : scope.contains (.array id) v l₄ =
      scope.searchArray id v elements.length 0 l₅ :=
    Eval.bind_run hn'
  refine ⟨l₅, (asks_arrayLength id).here l₄ _ l₅ hl₄ hn', ?_⟩
  rw [Scope.evaluate, Eval.bind_run hv, Eval.bind_run hid]
  simp only [Bool.bne_false, bind, EStateM.bind, Functor.map, EStateM.map, hcontains]
  rfl

theorem told_of_equals {result : Value} {i : Nat} (hi : i < elements.length) (hl : g.Here l)
    (hrun : scope.evaluate hole (elementEquals a e i) l = .ok result l') : g.Told id := by
  obtain ⟨item, l₃, hitem, -⟩ := Eval.bind_ok hrun
  obtain ⟨n, l₁, l₂, hl₁, hn, -, -⟩ :=
    index_ok (Nat.lt_of_lt_of_le hi h.length) h.array hl hitem
  exact ⟨n, l₁, l₂, hl₁, hn⟩

theorem told_of_contains {result : Value} (hl : g.Here l)
    (hrun : scope.evaluate hole (.contains e a false) l = .ok result l') : g.Told id := by
  obtain ⟨w, l₁, hw, hrun⟩ := Eval.bind_ok hrun
  obtain ⟨-, hl₁⟩ := h.value.ok hl hw
  obtain ⟨c, l₂, hc, hrun⟩ := Eval.bind_ok hrun
  obtain ⟨rfl, hl₂⟩ := h.array.ok hl₁ hc
  obtain ⟨_, _, hfound, -⟩ := Eval.bind_ok hrun
  obtain ⟨n, l₃, hn, -⟩ := Eval.bind_ok hfound
  exact ⟨n, l₂, l₃, hl₂, hn⟩

/-- A membership is decided by what the search finds out about the elements. -/
theorem contains_decides {found : Nat → Bool}
    (hfinds : ∀ i < elements.length, g.Finds scope id v i (found i)) (hl : g.Here l)
    (htold : g.Told id) :
    ∃ b l', scope.evaluate hole (.contains e a false) l = .ok (.bool b) l' ∧
      (b = true ↔ ∃ i < elements.length, found i = true) := by
  obtain ⟨l₁, hl₁, hcontains⟩ := h.contains_searches hl htold
  have hall (i : Nat) (_ : 0 ≤ i) (hi : i < 0 + elements.length) :
      g.Finds scope id v i (found i) :=
    hfinds i (by omega)
  obtain ⟨b, l', hsearch, -, hb⟩ := searchArray_run hall hl₁.later
  refine ⟨b, l', ?_, by simpa using hb⟩
  rw [hcontains]
  simp only [Functor.map, EStateM.map, hsearch]

/-- A value is in the array just if the search finds it in one of its places. -/
theorem contains_iff {Matches : Nat → Datum → Prop}
    (hfinds : ∀ i d, elements[i]? = some d →
      ∃ b, g.Finds scope id v i b ∧ (b = true ↔ Matches i d))
    (hl : g.Here l) (hequals : AllCompare scope hole a e elements l) :
    ((∃ l', scope.evaluate hole (.contains e a false) l = .ok (.bool true) l') ↔
      ∃ i d, elements[i]? = some d ∧ Matches i d) ∧
    (elements ≠ [] → ∃ b l', scope.evaluate hole (.contains e a false) l = .ok (.bool b) l') := by
  have htold {i : Nat} (hi : i < elements.length) : g.Told id := by
    obtain ⟨result, l', hrun⟩ := hequals i hi
    exact h.told_of_equals hi hl hrun
  have hplace (i : Nat) : ∃ b, ∀ hi : i < elements.length,
      g.Finds scope id v i b ∧ (b = true ↔ Matches i elements[i]) := by
    by_cases hi : i < elements.length
    · obtain ⟨b, hb⟩ := hfinds i _ (List.getElem?_eq_getElem hi)
      exact ⟨b, fun _ => hb⟩
    · exact ⟨false, fun h => absurd h hi⟩
  choose found hfound using hplace
  have hdecides := h.contains_decides (fun i hi => (hfound i hi).1) hl
  refine ⟨⟨?_, ?_⟩, fun hne => ?_⟩
  · rintro ⟨l', hrun⟩
    obtain ⟨b, l₁, hdecided, hb⟩ := hdecides (h.told_of_contains hl hrun)
    cases hrun.symm.trans hdecided
    obtain ⟨i, hi, htrue⟩ := hb.mp rfl
    exact ⟨i, _, List.getElem?_eq_getElem hi, (hfound i hi).2.mp htrue⟩
  · rintro ⟨i, d, hd, hmatches⟩
    obtain ⟨hi, rfl⟩ := List.getElem?_eq_some_iff.mp hd
    obtain ⟨b, l₁, hdecided, hb⟩ := hdecides (htold hi)
    obtain rfl := hb.mpr ⟨i, hi, (hfound i hi).2.mpr hmatches⟩
    exact ⟨l₁, hdecided⟩
  · obtain ⟨b, l₁, hdecided, -⟩ := hdecides (htold (List.length_pos_iff.mpr hne))
    exact ⟨b, l₁, hdecided⟩

end Searched

/-- A comparison that succeeds has found out what the search does, unless it unboxes the element. -/
theorem Lookup.finds {a e : Expr} {id : ObjectId} {elements : List Datum} {v : Value}
    (h : g.Lookup scope hole a e id elements v) {result : Value} {i : Nat} {d : Datum}
    (hd : elements[i]? = some d) (hl : g.Here l)
    (hrun : scope.evaluate hole (elementEquals a e i) l = .ok result l') :
    ∃ found, g.Finds scope id v i found ∧
      (found = true ↔ (Target.life g.acts).boxes d = false ∧ result = .bool true) := by
  obtain ⟨item, l₀, l₁, l₂, l₃, hl₁, hitem, hread, hl₃, hrun⟩ := h.compared hd hl hrun
  cases hbox : (Target.life g.acts).boxes d with
  | true =>
    refine ⟨false, ?_, by simp⟩
    cases d with
    | null | void | primitive | string | array => contradiction
    | object j =>
      cases hread
      refine finds_pure hitem hl₁ (equal_object fun k hk => ?_)
      have hplain := (h.comparable k hk).2 _ (List.mem_of_getElem? hd)
      rw [hbox] at hplain
      contradiction
  | false =>
    have hv (k : ObjectId) (hk : v = .object k) : (Target.life g.acts).isBox k = false :=
      (h.comparable k hk).1
    have hplain (k : ObjectId) (hk : item = .object k) :
        (Target.life g.acts).isBox k = false := by
      subst hk
      rw [← Option.some.inj (Eval.datum?_of_ofDatum hread)] at hbox
      exact hbox
    obtain ⟨b, l₄, hl₄, hequal, rfl⟩ := equal_of_binary hplain hv hl₃ hrun
    exact ⟨b, finds_of_equal h.thread hv hitem hl₁ hequal hl₄, by simp [Value.bool]⟩

/-- A value is in an array just if one of the elements that are no boxes equals it, where all of
them can be compared with it. -/
theorem membership_equality {a e : Expr} {id : ObjectId} {elements : List Datum} {v : Value}
    (h : g.Lookup scope hole a e id elements v) (hl : g.Here l)
    (hequals : ∀ i < elements.length, ∃ result l',
      scope.evaluate hole (elementEquals a e i) l = .ok result l') :
    ((∃ l', scope.evaluate hole (.contains e a false) l = .ok (.bool true) l') ↔
      ∃ i d, elements[i]? = some d ∧ (Target.life g.acts).boxes d = false ∧
        ∃ l', scope.evaluate hole (elementEquals a e i) l = .ok (.bool true) l') ∧
    (elements ≠ [] → ∃ b l', scope.evaluate hole (.contains e a false) l = .ok (.bool b) l') := by
  refine h.contains_iff (fun i d hd => ?_) hl hequals
  obtain ⟨result, l₂, hrun⟩ := hequals i (List.getElem?_eq_some_iff.mp hd).1
  obtain ⟨found, hfinds, hfound⟩ := h.finds hd hl hrun
  refine ⟨found, hfinds, hfound.trans (and_congr_right fun _ => ⟨?_, ?_⟩)⟩
  · rintro rfl
    exact ⟨l₂, hrun⟩
  · rintro ⟨l₃, htrue⟩
    cases hrun.symm.trans htrue
    rfl

/-- A point that says it equals whatever it is given, among the elements. -/
theorem membership_equality_points :
    let acts : List Target.Act := [
      .change (.define { name := "a.Point", methods := [
        { name := "equals", params := ["a.Point"],
          behaviour := .returns (.primitive (.boolean true)) }] } true),
      .change (.newObject 5 []), .change (.newObject 5 []),
      .change (.newArray "a.Point" [.null, .object 7]), .change .addThread,
      .change (.pushFrame 11 5 none 1
        [⟨"a", "a.Point[]", .array 10⟩, ⟨"p", "a.Point", .object 8⟩])]
    let g : Ground := ⟨acts, 11, fun _ => none⟩
    let scope : Scope := ⟨11, 12, {}⟩
    let hole : String → Eval Value := fun _ => pure .null
    let l : Link := { target := Target.life acts }
    g.Lookup scope hole (.name "a") (.name "p") 10 [.null, .object 7] (.object 8) ∧ g.Here l ∧
      (∀ i < 2, ∃ result l',
        scope.evaluate hole (elementEquals (.name "a") (.name "p") i) l = .ok result l') ∧
      ∃ l', scope.evaluate hole (.contains (.name "p") (.name "a") false) l =
        .ok (.bool true) l' := by
  intro acts g scope hole l
  let frame : Frame :=
    ⟨12, 5, none, 1, [⟨"a", "a.Point[]", .array 10⟩, ⟨"p", "a.Point", .object 8⟩]⟩
  have hframe : (Target.life acts).checkFrame 11 12 = .ok frame := by rfl
  have hplain : ∀ d ∈ [Datum.object 8, .null, .object 7], (Target.life acts).boxes d = false := by
    decide +kernel
  have hlookup : g.Lookup scope hole (.name "a") (.name "p") 10 [.null, .object 7] (.object 8) := by
    refine ⟨⟨rfl, ⟨9, rfl⟩, by decide, ?_, ?_⟩, ?_⟩
    · exact denotes_local rfl rfl hframe rfl (by decide) fun l hl => ⟨l, rfl, hl⟩
    · exact denotes_local rfl rfl hframe rfl (by decide) fun l hl => ⟨l, rfl, hl⟩
    · rintro id hid
      cases hid
      exact ⟨hplain _ List.mem_cons_self, fun d hd => hplain d (List.mem_cons_of_mem _ hd)⟩
  have hhere : g.Here l := ⟨rfl, rfl⟩
  have hfirst : (Link.outcome (scope.evaluate hole (elementEquals (.name "a") (.name "p") 0))
      l).1.toOption.bind Value.truth? = some false := by
    decide +kernel
  have hsecond : (Link.outcome (scope.evaluate hole (elementEquals (.name "a") (.name "p") 1))
      l).1.toOption.bind Value.truth? = some true := by
    decide +kernel
  obtain ⟨l₁, hfirst⟩ := Eval.ok_of_truth hfirst
  obtain ⟨l₂, hsecond⟩ := Eval.ok_of_truth hsecond
  have hequals : ∀ i < 2, ∃ result l',
      scope.evaluate hole (elementEquals (.name "a") (.name "p") i) l = .ok result l' := by
    intro i hi
    obtain rfl | rfl : i = 0 ∨ i = 1 := by omega
    · exact ⟨_, l₁, hfirst⟩
    · exact ⟨_, l₂, hsecond⟩
  refine ⟨hlookup, hhere, hequals, (membership_equality hlookup hhere hequals).1.mpr ?_⟩
  exact ⟨1, .object 7, rfl, hplain _ (by simp), l₂, hsecond⟩

/-- A box of five is not found, though it equals five. -/
theorem membership_of_box :
    let acts : List Target.Act := [.change (.define { name := "java.lang.Integer" } true),
      .change (.newObject 5 [("value", .primitive (.int 5))]),
      .change (.newArray "java.lang.Integer" [.object 6]), .change .addThread,
      .change (.pushFrame 9 5 none 1 [⟨"a", "java.lang.Integer[]", .array 8⟩])]
    let scope : Scope := ⟨9, 10, {}⟩
    let l : Link := { target := Target.life acts }
    let hole : String → Eval Value := fun _ => pure .null
    let five : Expr := .literal (.int 5)
    (∃ l', scope.evaluate hole (elementEquals (.name "a") five 0) l = .ok (.bool true) l') ∧
      ∃ l', scope.evaluate hole (.contains five (.name "a") false) l = .ok (.bool false) l' := by
  intro acts scope l hole five
  have hequal : (Link.outcome (scope.evaluate hole (elementEquals (.name "a") five 0))
      l).1.toOption.bind Value.truth? = some true := by
    decide +kernel
  have hcontains : (Link.outcome (scope.evaluate hole (.contains five (.name "a") false))
      l).1.toOption.bind Value.truth? = some false := by
    decide +kernel
  exact ⟨Eval.ok_of_truth hequal, Eval.ok_of_truth hcontains⟩

/-! ### Objects to be looked for -/

/-- An object is compared as the object that it is, where no other object is asked whether it
equals it. -/
theorem equal_object_alone {item : Value} {k : ObjectId}
    (halone : scope.settings.allowInvocation = false ∨ ∀ j, item = .object j → j = k) :
    ∃ b, scope.equal item (.object k) = pure b ∧ (b = true ↔ item = .object k) := by
  by_cases hobject : ∃ j, item = .object j
  · obtain ⟨j, rfl⟩ := hobject
    rw [equal_objects]
    by_cases hsame : j = k
    · exact ⟨true, if_pos hsame, by simp [hsame]⟩
    · have hoff := halone.resolve_right fun hall => hsame (hall j rfl)
      refine ⟨false, ?_, by simp [hsame]⟩
      rw [if_neg hsame, hoff]
      rfl
  · refine ⟨false, equal_object_right fun j hj => hobject ⟨j, hj⟩, ?_⟩
    exact iff_of_false Bool.false_ne_true fun h => hobject ⟨k, h⟩

/-- An object is in an array just if it is one of the elements itself, where no other object among
them can be asked. So a box is not found by what it holds, whether that stands there as a primitive
or in another box. -/
theorem membership_of_object {a e : Expr} {id k : ObjectId} {elements : List Datum}
    (h : g.Searched scope hole a e id elements (.object k)) (hl : g.Here l)
    (halone : scope.settings.allowInvocation = false ∨ ∀ j, .object j ∈ elements → j = k)
    (hequals : AllCompare scope hole a e elements l) :
    ((∃ l', scope.evaluate hole (.contains e a false) l = .ok (.bool true) l') ↔
      .object k ∈ elements) ∧
    (elements ≠ [] → ∃ b l', scope.evaluate hole (.contains e a false) l = .ok (.bool b) l') := by
  have hfinds (i : Nat) (d : Datum) (hd : elements[i]? = some d) :
      ∃ b, g.Finds scope id (.object k) i b ∧ (b = true ↔ d = .object k) := by
    obtain ⟨result, l', hrun⟩ := hequals i (List.getElem?_eq_some_iff.mp hd).1
    obtain ⟨item, l₀, l₁, l₂, l₃, hl₁, hitem, hread, -⟩ := h.compared hd hl hrun
    have hobject (j : ObjectId) : item = .object j ↔ d = .object j := by
      constructor
      · rintro rfl
        exact (Option.some.inj (Eval.datum?_of_ofDatum hread)).symm
      · rintro rfl
        cases hread
        rfl
    have hlone : scope.settings.allowInvocation = false ∨ ∀ j, item = .object j → j = k :=
      halone.imp_right fun hall j hj => hall j ((hobject j).mp hj ▸ List.mem_of_getElem? hd)
    obtain ⟨b, hpure, hb⟩ := equal_object_alone hlone
    exact ⟨b, finds_pure hitem hl₁ hpure, hb.trans (hobject k)⟩
  obtain ⟨hiff, hanswer⟩ := h.contains_iff hfinds hl hequals
  refine ⟨hiff.trans ?_, hanswer⟩
  rw [List.mem_iff_getElem?]
  exact exists_congr fun i => exists_eq_right

/-- A box of five equals the five of an array and is not in it. -/
example :
    let acts : List Target.Act := [.change (.define { name := "java.lang.Integer" } true),
      .change (.newObject 5 [("value", .primitive (.int 5))]),
      .change (.newArray "int" [.primitive (.int 5)]), .change .addThread,
      .change (.pushFrame 9 5 none 1
        [⟨"a", "int[]", .array 8⟩, ⟨"e", "java.lang.Integer", .object 6⟩])]
    let answer (e : Expr) : Option Bool :=
      (Link.outcome (Scope.evaluate ⟨9, 10, {}⟩ (fun _ => pure .null) e)
        { target := Target.life acts }).1.toOption.bind Value.truth?
    answer (elementEquals (.name "a") (.name "e") 0) = some true ∧
      answer (.contains (.name "e") (.name "a") false) = some false := by
  decide +kernel

end Ground

end Debugger
