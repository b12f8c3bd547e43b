import Debugger.Proofs.Lifetimes

/-!
What types and heaps look like in the life of a target: every type has a number of its own, strings
have a type, and arrays are of types that are named as such.
-/

namespace Debugger.Target

/-- Whether a type is named as a type of arrays. -/
def ArrayName (name : String) : Prop :=
  ∃ element, name = element ++ "[]"

/-- Types have numbers of their own, the type of strings is there, and the type of an array is one
of arrays. -/
structure Formed (t : Target) : Prop where
  distinct : (t.types.map (·.id)).Nodup
  strings : ∃ e ∈ t.types, e.name = TypeName.string
  arrays : ∀ id type elements, (id, HeapCell.array type elements) ∈ t.heap →
    ∃ e ∈ t.types, e.id = type ∧ ArrayName e.name

namespace Formed

variable {t t' : Target} (h : t.Formed)

include h

/-- Types stay as they are, and no array is new. -/
theorem of_same (htypes : t'.types = t.types) (hheap : ∀ id type elements,
    (id, HeapCell.array type elements) ∈ t'.heap → (id, HeapCell.array type elements) ∈ t.heap) :
    t'.Formed := by
  refine ⟨by rw [htypes]; exact h.distinct, by rw [htypes]; exact h.strings, ?_⟩
  intro id type elements hm
  rw [htypes]
  exact h.arrays id type elements (hheap id type elements hm)

/-- A type that is looked up by name has that name. -/
theorem type?_of_typeNamed? {name : String} {id : TypeId} (hid : t.typeNamed? name = some id) :
    ∃ e, t.type? id = some e ∧ e.name = name := by
  obtain ⟨e, he, rfl⟩ := Option.map_eq_some_iff.mp hid
  exact ⟨e, type?_of_mem h.distinct (List.mem_of_find?_eq_some he),
    by simpa using List.find?_some he⟩

theorem typeNamed?_string : ∃ id, t.typeNamed? TypeName.string = some id := by
  obtain ⟨e, he, hname⟩ := h.strings
  have hfound : (t.types.find? (·.name = TypeName.string)).isSome := by
    rw [List.find?_isSome]
    exact ⟨e, he, by simpa using hname⟩
  obtain ⟨d, hd⟩ := Option.isSome_iff_exists.mp hfound
  exact ⟨d.id, by rw [typeNamed?, hd]; rfl⟩

/-- The type of strings is not defined again. -/
theorem ensureType_string : ∃ id, t.typeNamed? TypeName.string = some id ∧
    t.ensureType TypeName.string = (id, t) := by
  obtain ⟨id, hid⟩ := h.typeNamed?_string
  exact ⟨id, hid, by rw [ensureType, hid]⟩

theorem array_type {id : ObjectId} {type : TypeId} {elements : List Datum}
    (hcell : t.object? id = some (.array type elements)) :
    ∃ e, t.type? type = some e ∧ ArrayName e.name := by
  have hm : (id, HeapCell.array type elements) ∈ t.heap := by
    obtain ⟨front, back, hsplit, -⟩ := List.lookup_eq_some_iff.mp hcell
    rw [hsplit]
    exact List.mem_append_right _ List.mem_cons_self
  obtain ⟨e, he, rfl, hname⟩ := h.arrays id type elements hm
  exact ⟨e, type?_of_mem h.distinct he, hname⟩

/-! ### Steps -/

theorem define (hi : t.Issued) (spec : TypeSpec) (loaded : Bool) :
    (t.define spec loaded).2.Formed := by
  obtain ⟨e, htypes, hid⟩ : ∃ e, (t.define spec loaded).2.types = t.types ++ [e] ∧
      e.id = t.lastId + 1 := ⟨_, rfl, rfl⟩
  have hfresh : e.id ∉ t.types.map (·.id) := by
    intro hm
    obtain ⟨d, hd, hde⟩ := List.mem_map.mp hm
    have hnumber : d.id ∈ t.numbers := List.mem_flatMap.mpr ⟨d, hd, List.mem_cons_self⟩
    have hle := hi d.id (mem_ids.mpr (.inl hnumber))
    rw [hde, hid] at hle
    exact absurd hle (Nat.not_succ_le_self _)
  refine ⟨?_, ?_, ?_⟩
  · rw [htypes, List.map_append]
    refine List.nodup_append.mpr ⟨h.distinct, List.nodup_singleton _, fun a ha b hb hab => ?_⟩
    obtain rfl : b = e.id := by simpa using hb
    exact hfresh (hab ▸ ha)
  · obtain ⟨d, hd, hname⟩ := h.strings
    exact ⟨d, by rw [htypes]; exact List.mem_append_left _ hd, hname⟩
  · intro id type elements hm
    obtain ⟨d, hd, hrest⟩ := h.arrays id type elements hm
    exact ⟨d, by rw [htypes]; exact List.mem_append_left _ hd, hrest⟩

theorem ensureType (hi : t.Issued) (name : String) : (t.ensureType name).2.Formed := by
  unfold Target.ensureType
  split
  · exact h
  · exact h.define hi _ _

theorem allocate {cell : HeapCell} (hcell : ∀ type elements, cell = .array type elements →
    ∃ e ∈ t.types, e.id = type ∧ ArrayName e.name) : (t.allocate cell).2.Formed := by
  refine ⟨h.distinct, h.strings, fun id type elements hm => ?_⟩
  cases List.mem_cons.mp hm with
  | inl hnew => exact hcell type elements (congrArg Prod.snd hnew).symm
  | inr hold => exact h.arrays id type elements hold

/-- Cells other than arrays may be put on the heap at will. -/
theorem allocate_other {cell : HeapCell} (hcell : ∀ type elements, cell ≠ .array type elements) :
    (t.allocate cell).2.Formed :=
  h.allocate fun type elements he => absurd he (hcell type elements)

theorem newArray (hi : t.Issued) (element : String) (elements : List Datum) :
    (t.newArray element elements).2.Formed := by
  refine (h.ensureType hi (element ++ "[]")).allocate ?_
  rintro type _ ⟨rfl, rfl⟩
  obtain ⟨e, he, hid, hname⟩ : ∃ e ∈ (t.ensureType (element ++ "[]")).2.types,
      e.id = (t.ensureType (element ++ "[]")).1 ∧ e.name = element ++ "[]" := by
    unfold Target.ensureType
    split
    · rename_i id hnamed
      obtain ⟨e, he, hname⟩ := h.type?_of_typeNamed? hnamed
      exact ⟨e, (mem_of_type? he).1, (mem_of_type? he).2, hname⟩
    · exact ⟨_, List.mem_append_right _ List.mem_cons_self, rfl, rfl⟩
  exact ⟨e, he, hid, element, hname⟩

theorem load (type : TypeId) : (t.load type).Formed := by
  unfold Target.load
  split
  · exact h
  · rename_i entry _
    let mark (e : TypeEntry) : TypeEntry := if e.id = type then { e with loaded := true } else e
    have hmark (e : TypeEntry) : (mark e).id = e.id ∧ (mark e).name = e.name := by
      simp only [mark]
      split <;> exact ⟨rfl, rfl⟩
    have hmarked : ({ t with types := t.types.map mark } : Target).Formed := by
      refine ⟨?_, ?_, fun id type elements hm => ?_⟩
      · simpa [List.map_map, Function.comp_def, hmark] using h.distinct
      · obtain ⟨e, he, hname⟩ := h.strings
        exact ⟨mark e, List.mem_map_of_mem he, (hmark e).2.trans hname⟩
      · obtain ⟨e, he, hid, hname⟩ := h.arrays id type elements hm
        exact ⟨mark e, List.mem_map_of_mem he, (hmark e).1.trans hid, (hmark e).2 ▸ hname⟩
    dsimp only
    split
    · exact hmarked.of_same rfl fun _ _ _ hm => hm
    · exact hmarked

/-- A cell may be overwritten by one that is no array, or is one of the type of an array. -/
theorem setCell (object : ObjectId) {cell : HeapCell}
    (hcell : ∀ type elements, cell = .array type elements →
      ∃ e ∈ t.types, e.id = type ∧ ArrayName e.name) : (t.setCell object cell).Formed := by
  refine ⟨h.distinct, h.strings, fun id type elements hm => ?_⟩
  obtain ⟨⟨i, c⟩, hold, heq⟩ := List.mem_map.mp hm
  dsimp only at heq
  split at heq
  · exact hcell type elements (congrArg Prod.snd heq)
  · cases heq
    exact h.arrays _ _ _ hold

theorem run (thread : ThreadId) (receiver : Option Receiver) (method : MethodId)
    (args : List Datum) : (t.run thread receiver method args).2.Formed := by
  unfold Target.run
  split
  · exact h
  · rename_i m behaviour _
    have hlogged : ∀ records, ({ t with invocations := records } : Target).Formed :=
      fun _ => h.of_same rfl fun _ _ _ hm => hm
    cases behaviour with
    | returns | throws | computes => exact hlogged _
    | boxes name =>
      simp only [perform]
      split
      · exact hlogged _
      · exact (hlogged _).allocate_other (by simp)

end Formed

theorem Change.formed {t : Target} (h : t.Formed) (hi : t.Issued) (c : Change) :
    (c.apply t).Formed := by
  cases c with
  | define spec loaded => exact h.define hi spec loaded
  | load type => exact h.load type
  | newObject | newString => exact h.allocate_other (by simp)
  | newArray element elements => exact h.newArray hi element elements
  | collect object => exact h.of_same rfl fun _ _ _ hm => (List.mem_filter.mp hm).1
  | hit request thread =>
    simp only [apply, Target.hit]
    split <;> exact h.of_same rfl fun _ _ _ hm => hm
  | addThread | pushFrame | setLocal | suspend | emit | disconnect =>
    exact h.of_same rfl fun _ _ _ hm => hm

/-- Asking for the type of an object tells the type of the cell, that of strings being defined if
need be. -/
theorem objectType_ok {t t' : Target} {id : ObjectId} {type : TypeId}
    (h : t.objectType id = .ok (type, t')) : ∃ cell, t.object? id = some cell ∧
      (type, t') = match cell with
        | .instance type _ | .array type _ => (type, t)
        | .string _ => t.ensureType TypeName.string := by
  simp only [objectType, checkObject, bind, Except.bind] at h
  split at h
  · contradiction
  · rename_i cell hcell
    split at hcell
    · contradiction
    · split at hcell
      · rename_i found hfound
        cases hcell
        refine ⟨_, hfound, ?_⟩
        cases cell <;> exact (Except.ok.inj h).symm
      · contradiction

theorem setField_ok {t t' : Target} {object : ObjectId} {name : String} {value : Datum}
    (h : t.setField object name value = .ok t') :
    ∃ type fields, t' = t.setCell object (.instance type fields) := by
  simp only [setField, bind, Except.bind] at h
  split at h
  · contradiction
  · split at h
    · cases h
      exact ⟨_, _, rfl⟩
    · contradiction

theorem setElement_ok {t t' : Target} {object : ObjectId} {index : Nat} {value : Datum}
    (h : t.setElement object index value = .ok t') : ∃ type elements elements',
      t.object? object = some (.array type elements) ∧
      t' = t.setCell object (.array type elements') := by
  simp only [setElement, checkArray, checkObject, bind, Except.bind] at h
  cases hc : t.checkConnected with
  | error fault =>
    rw [hc] at h
    contradiction
  | ok _ =>
    rw [hc] at h
    cases hcell : t.object? object with
    | none =>
      rw [hcell] at h
      contradiction
    | some cell =>
      rw [hcell] at h
      cases cell with
      | «instance» | string => contradiction
      | array type elements =>
        dsimp only [pure, Except.pure] at h
        split at h
        · cases h
          exact ⟨type, elements, _, rfl, rfl⟩
        · contradiction

theorem Act.formed {t : Target} (h : t.Formed) (hi : t.Issued) (act : Act) :
    (act.apply t).Formed := by
  cases act with
  | change c => exact c.formed h hi
  | createRequest location =>
    refine settle_snd_of h fun id t' hok => ?_
    rw [(createRequest_ok hok).2]
    exact h.of_same rfl fun _ _ _ hm => hm
  | setRequestEnabled request enabled =>
    refine settle_of h fun t' hok => ?_
    rw [setRequestEnabled_ok hok]
    exact h.of_same rfl fun _ _ _ hm => hm
  | deleteRequest request =>
    refine settle_of h fun t' hok => ?_
    simp only [Target.deleteRequest, bind, Except.bind] at hok
    repeat' split at hok
    all_goals cases hok
    all_goals exact h.of_same rfl fun _ _ _ hm => hm
  | subscribeLoads filter =>
    refine settle_snd_of h fun id t' hok => ?_
    rw [(subscribeLoads_ok hok).1]
    exact h.of_same rfl fun _ _ _ hm => hm
  | resume thread =>
    refine settle_of h fun t' hok => ?_
    simp only [Target.resume, bind, Except.bind] at hok
    split at hok
    · contradiction
    · cases hok
      exact h.of_same rfl fun _ _ _ hm => hm
  | objectType object =>
    refine settle_snd_of h fun type t' hok => ?_
    obtain ⟨cell, -, hrun⟩ := objectType_ok hok
    obtain ⟨id, -, hsame⟩ := h.ensureType_string
    cases cell with
    | string text =>
      dsimp only at hrun
      rw [hsame] at hrun
      cases hrun
      exact h
    | «instance» | array =>
      cases hrun
      exact h
  | setField object name value =>
    refine settle_of h fun t' hok => ?_
    obtain ⟨type, fields, rfl⟩ := setField_ok hok
    exact h.setCell object (by simp)
  | setElement object index value =>
    refine settle_of h fun t' hok => ?_
    obtain ⟨type, elements, elements', hcell, rfl⟩ := setElement_ok hok
    obtain ⟨e, he, hname⟩ := h.array_type hcell
    refine h.setCell object ?_
    rintro _ _ ⟨rfl, rfl⟩
    exact ⟨e, (mem_of_type? he).1, (mem_of_type? he).2, hname⟩
  | wrapString text =>
    refine settle_snd_of h fun id t' hok => ?_
    simp only [Target.wrapString, bind, Except.bind] at hok
    split at hok
    · contradiction
    · cases hok
      exact h.allocate_other (by simp)
  | invoke thread receiver method args => exact h.run thread _ method args
  | construct thread type constructor args =>
    have hrun := h.run thread none constructor args
    simp only [apply, Target.construct]
    split
    · rename_i hvoid
      rw [hvoid] at hrun
      exact hrun.allocate_other (by simp)
    · exact hrun

theorem acts_formed {t : Target} (h : t.Formed) (hi : t.Issued) (acts : List Act) :
    (acts.foldl Act.apply t).Formed := by
  induction acts generalizing t with
  | nil => exact h
  | cons act acts ih => exact ih (act.formed h hi) ((act.grows t).issued hi)

theorem life_formed (acts : List Act) : (life acts).Formed := by
  have hstart : start.Formed :=
    ⟨by decide +kernel, by decide +kernel, fun _ _ _ hm => absurd hm List.not_mem_nil⟩
  exact acts_formed hstart (life_issued []) acts

end Debugger.Target
