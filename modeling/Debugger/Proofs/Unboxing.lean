import Mathlib.Data.Fintype.Card
import Debugger.Proofs.Nesting
import Debugger.Proofs.Repetition

/-!
What comes out of a box: the primitive in its field, or else whatever its accessor returns, which
may be a box again. Boxes that are in one another deeper than there are types have no end, for then
two of them are of one type, and what comes out of the one comes out of the other.
-/

namespace Debugger

/-! ### Where the value comes from -/

namespace Target

variable {t t' t₁ t₁' : Target}

/-- The accessor of boxes of the kind: the first method of its name without parameters. -/
def accessor? (t : Target) (type : TypeId) (kind : PrimitiveKind) : Option Method :=
  (t.methodsByName type (kind.name ++ "Value")).toOption.bind fun methods =>
    methods.find? fun m => m.params.isEmpty && !m.isStatic

theorem field_primitive {id : ObjectId} {name : String} {type : TypeId}
    {fields : List (String × Datum)} {p : Primitive}
    (hcell : t.object? id = some (.instance type fields))
    (h : t.field id name = .ok (some (.primitive p))) :
    fields.lookup name = some (.primitive p) := by
  have hchecked := checkObject_of_object (field_connected h) hcell
  simp only [field, hchecked, bind, Except.bind] at h
  split at h
  · rw [← Option.some.inj (Except.ok.inj h)]
    assumption
  · split at h <;> cases h

theorem checkObject_congr {id id' : ObjectId} {cell : HeapCell}
    (hconnected : t'.connected = t.connected) (hcell : t.object? id = some cell)
    (hcell' : t'.object? id' = some cell) : t'.checkObject id' = t.checkObject id := by
  simp only [checkObject, checkConnected, hconnected, hcell, hcell']

/-- A field depends on the cell and on the types. -/
theorem field_congr {id id' : ObjectId} (hcell : t'.checkObject id' = t.checkObject id)
    (htypes : t'.types = t.types) (name : String) : t'.field id' name = t.field id name := by
  have htype : t'.type? = t.type? := by
    funext type
    rw [type?, type?, htypes]
  simp only [field, hcell, lineage_congr htypes, htype]

theorem invoke_ok {thread : ThreadId} {receiver : Receiver} {method : MethodId} {args : List Datum}
    {d : Datum} (h : t.invoke thread receiver method args = (.ok d, t')) :
    ∃ m behaviour record, t.checkInvocation thread (some receiver) method = .ok (m, behaviour) ∧
      (t.logging record).perform args behaviour = (.ok d, t') := by
  rw [invoke, run] at h
  split at h
  · cases (Prod.mk.inj h).1
  · exact ⟨_, _, _, ‹_›, h⟩

/-- Of an object that code is run on, only that it is there is checked. -/
theorem checkInvocation_object {thread : ThreadId} {id : ObjectId} {method : MethodId}
    {cell : HeapCell} (hcell : t.object? id = some cell) :
    t.checkInvocation thread (some (.object id)) method = t.checkInvocation thread none method := by
  cases hc : t.connected with
  | true =>
    simp only [checkInvocation, checkObject_of_object hc hcell]
    rfl
  | false =>
    simp only [checkInvocation, checkThread, checkConnected, hc]
    rfl

/-- Behaviour that is given no arguments returns the same object again, or makes one like it. -/
theorem perform_alike {behaviour : Behaviour} {i j : ObjectId}
    (h : t.perform [] behaviour = (.ok (.object i), t₁))
    (h' : t'.perform [] behaviour = (.ok (.object j), t₁')) (htypes : t'.types = t.types) :
    j = i ∨ ∃ cell, t₁.object? i = some cell ∧ t₁'.object? j = some cell := by
  cases behaviour with
  | returns value =>
    cases h
    cases h'
    exact .inl rfl
  | throws exception => cases (Prod.mk.inj h).1
  | computes function =>
    simp only [perform, Prod.mk.injEq, Except.ok.injEq] at h h'
    exact .inl (Datum.object.inj (h'.1.symm.trans h.1))
  | boxes name =>
    have hnamed : t'.typeNamed? name = t.typeNamed? name := by
      rw [typeNamed?, typeNamed?, htypes]
    simp only [perform, hnamed] at h h'
    cases hname : t.typeNamed? name with
    | none =>
      simp only [hname] at h
      cases h
    | some type =>
      simp only [hname] at h h'
      cases h
      cases h'
      exact .inr ⟨.instance type [("value", .null)], List.lookup_cons_self, List.lookup_cons_self⟩

end Target

namespace Scope

open Eval

variable {scope : Scope} {id inner : ObjectId} {l l' : Link}

theorem constant_lasting (scope : Scope) :
    Lasting (fun l l' : Link => l'.refuses = l.refuses) scope :=
  have h : Target.Admits (fun _ _ => True) scope.thread
      (scope.settings.allowInvocation = true) :=
    ⟨fun _ => trivial, fun _ _ => trivial, fun _ _ => trivial, fun _ _ => trivial,
      fun _ _ _ _ => trivial⟩
  h.lasting (fun _ _ _ _ => rfl) (fun _ => rfl) fun h h' => h'.trans h

/-- Only boxes are unboxed. What comes out is the primitive of their kind in their field, or what
their accessor answers. -/
theorem unbox?_source (hf : l.target.Formed) {w : Value}
    (h : scope.unbox? (.object id) l = .ok (some w) l') :
    ∃ type fields e kind, l.target.object? id = some (.instance type fields) ∧
      l.target.type? type = some e ∧ e.name = PrimitiveKind.box kind ∧
      ((∃ p, w = .primitive p ∧ p.kind = kind ∧ fields.lookup "value" = some (.primitive p)) ∨
        ∃ m d, l.target.accessor? type kind = some m ∧
          l.target.invoke scope.thread (.object id) m.id [] = (.ok d, l'.target) ∧
          w.datum? = some d) := by
  obtain ⟨string, hs⟩ := hf.typeNamed?_string
  obtain ⟨type, name, kind, datum, l₁, l₂, l₃, htype, hname, hkind, hfield, hfrom⟩ :=
    unbox?_ok_iff.mp h
  obtain ⟨h₁, cell, hcell, htype⟩ := Eval.objectType_ok hs htype
  obtain ⟨hname, h₂⟩ := Link.ask_ok hname
  obtain ⟨e, he, rfl⟩ := Target.typeName_ok hname
  obtain ⟨hfield, h₃⟩ := Link.ask_ok hfield
  rw [h₁] at he
  rw [h₂, h₁] at hfield
  obtain ⟨fields, rfl⟩ := hf.cell_of_box hs hcell htype he hkind
  refine ⟨type, fields, e, kind, hcell, he, (PrimitiveKind.box_of_ofBox? hkind).symm, ?_⟩
  obtain ⟨p, rfl, hp, hw, -⟩ | ⟨l₄, hpass, haccessor⟩ := hfrom
  · exact .inl ⟨p, hw, hp, Target.field_primitive hcell hfield⟩
  · obtain ⟨methods, m, d, l₅, l₆, l₇, hmethods, hm, hguard, hrun, hv⟩ :=
      unboxByAccessor_ok_iff.mp haccessor
    obtain ⟨hmethods, h₅⟩ := Link.ask_ok hmethods
    have h₄ : l₄.target = l.target := by rw [hpass.target, h₃, h₂, h₁]
    have hinvoke := Link.call_ok hrun
    rw [ensureInvocable_ok hguard, h₅, h₄, ← ofDatum_ok hv] at hinvoke
    rw [h₄] at hmethods
    refine .inr ⟨m, d, ?_, hinvoke, datum?_of_ofDatum hv⟩
    simp only [Target.accessor?, hmethods]
    exact hm

/-- What comes out of a box that an object comes out of. -/
theorem unbox?_object (hf : l.target.Formed)
    (h : scope.unbox? (.object id) l = .ok (some (.object inner)) l') :
    ∃ type fields e kind m, l.target.object? id = some (.instance type fields) ∧
      l.target.type? type = some e ∧ e.name = PrimitiveKind.box kind ∧
      l.target.accessor? type kind = some m ∧
      l.target.invoke scope.thread (.object id) m.id [] = (.ok (.object inner), l'.target) := by
  obtain ⟨type, fields, e, kind, hcell, he, hbox, ⟨p, hp, -⟩ | ⟨m, d, hm, hinvoke, hd⟩⟩ :=
    unbox?_source hf h
  · cases hp
  · cases hd
    exact ⟨type, fields, e, kind, m, hcell, he, hbox, hm, hinvoke⟩

/-- What comes out of two boxes of one type is the same object, or there are two alike. -/
theorem unbox?_alike {i j i' j' : ObjectId} {l₁ l₁' : Link} {type : TypeId}
    {fields fields' : List (String × Datum)} (hf : l.target.Formed) (hf' : l'.target.Formed)
    (htypes : l'.target.types = l.target.types)
    (hconnected : l'.target.connected = l.target.connected)
    (hi : l.target.object? i = some (.instance type fields))
    (hi' : l'.target.object? i' = some (.instance type fields'))
    (h : scope.unbox? (.object i) l = .ok (some (.object j)) l₁)
    (h' : scope.unbox? (.object i') l' = .ok (some (.object j')) l₁') :
    j' = j ∨ ∃ cell, l₁.target.object? j = some cell ∧ l₁'.target.object? j' = some cell := by
  obtain ⟨type₁, _, e, kind, m, hcell, he, hbox, hm, hinvoke⟩ := unbox?_object hf h
  obtain ⟨type₂, _, e', kind', m', hcell', he', hbox', hm', hinvoke'⟩ := unbox?_object hf' h'
  -- The type gives the kind, the kind the accessor, and that the behaviour.
  obtain ⟨rfl, -⟩ := HeapCell.instance.inj (Option.some.inj (hi.symm.trans hcell))
  obtain ⟨rfl, -⟩ := HeapCell.instance.inj (Option.some.inj (hi'.symm.trans hcell'))
  rw [Target.type?, htypes, ← Target.type?, he] at he'
  obtain rfl := Option.some.inj he'
  obtain rfl : kind = kind' := by
    apply Option.some.inj
    rw [← PrimitiveKind.ofBox?_box kind, ← PrimitiveKind.ofBox?_box kind', ← hbox, ← hbox']
  rw [Target.accessor?, Target.methodsByName_congr htypes hconnected, ← Target.accessor?, hm] at hm'
  obtain rfl := Option.some.inj hm'
  obtain ⟨method, behaviour, record, hcheck, hperform⟩ := Target.invoke_ok hinvoke
  obtain ⟨method', behaviour', record', hcheck', hperform'⟩ := Target.invoke_ok hinvoke'
  have hmethod := Target.checkInvocation_method hcheck
  have hmethod' := Target.checkInvocation_method hcheck'
  rw [Target.method?_congr htypes, hmethod] at hmethod'
  cases hmethod'
  exact Target.perform_alike hperform hperform' htypes

end Scope

namespace Ground

open Eval Scope

variable {g : Ground} {scope : Scope} {id inner : ObjectId} {l l' l₁ : Link}

/-- After an unboxing that an object comes out of, the target has lived on. -/
theorem Here.unbox (hl : g.Here l)
    (h : scope.unbox? (.object id) l = .ok (some (.object inner)) l₁) :
    ∃ acts, (Ground.mk acts g.thread g.refuses).Here l₁ := by
  have hf : l.target.Formed := hl.target ▸ Target.life_formed g.acts
  obtain ⟨_, _, _, _, m, -, -, -, -, hinvoke⟩ := unbox?_object hf h
  have hrefuses : (l.after (scope.unbox? (.object id))).refuses = l.refuses :=
    (constant_lasting scope).unbox? _ l
  rw [Link.after, h] at hrefuses
  refine ⟨g.acts ++ [.invoke scope.thread (.object id) m.id []], ?_, hrefuses.trans hl.refuses⟩
  rw [Target.life, List.foldl_append, ← Target.life, ← hl.target]
  exact (congrArg Prod.snd hinvoke).symm

theorem Later.unbox (hthread : scope.thread = g.thread) (hl : g.Later l)
    (h : scope.unbox? (.object id) l = .ok (some (.object inner)) l₁) : g.Later l₁ := by
  have hrefuses : (l.after (scope.unbox? (.object id))).refuses = l.refuses :=
    (constant_lasting scope).unbox? _ l
  rw [Link.after, h] at hrefuses
  have hu := hl.underway
  rw [← hthread] at hu
  have hu₁ := underway_of_leads (Target.life_formed g.acts) hu
    ((Link.gains_lasting scope).unbox? _) ((Link.settled_lasting scope).unbox? _) h
  exact ⟨hthread ▸ hu₁, hrefuses.trans hl.refuses⟩

theorem Later.types (hl' : g.Later l') (hl : g.Here l) : l'.target.types = l.target.types := by
  rw [hl'.underway.types, hl.target]

theorem Later.connected (hl' : g.Later l') (hl : g.Here l) :
    l'.target.connected = l.target.connected := by
  rw [hl'.underway.connected, hl.target]

section Again

variable {id' : ObjectId} {cell : HeapCell} (hl : g.Here l) (hl' : g.Later l')
  (hcell : l.target.object? id = some cell) (hcell' : l'.target.object? id' = some cell)

include hl hl'

theorem passesOver_again {kind : PrimitiveKind} {datum : Option Datum}
    (h : PassesOver kind datum l l₁) :
    g.Here l₁ ∧ ∃ l₁', PassesOver kind datum l' l₁' ∧ g.Later l₁' := by
  cases datum with
  | none =>
    obtain rfl : l₁ = l := h
    exact ⟨hl, l', rfl, hl'⟩
  | some d =>
    obtain ⟨v, hv, hkind⟩ := h
    obtain ⟨_, l₁', hv', rfl, hl₁'⟩ := (asks_ofDatum d).repeats l v l₁ hl hv l' hl'
    exact ⟨(asks_ofDatum d).here l v l₁ hl hv, l₁', ⟨v, hv', hkind⟩, hl₁'⟩

include hcell hcell'

/-! Asked about another object with the same cell, the target answers the same. -/

theorem objectType_again {type : TypeId}
    (h : (liftM (Remote.objectType id) : Eval TypeId) l = .ok type l₁) :
    (liftM (Remote.objectType id') : Eval TypeId) l' = .ok type l'.counted := by
  obtain ⟨string, hs⟩ := (Target.life_formed g.acts).typeNamed?_string
  have hs' : l'.target.typeNamed? TypeName.string = some string := by
    rw [Target.typeNamed?, hl'.underway.types, ← Target.typeNamed?, hs]
  have hserved := served_later hl hl' (Link.order_served h).1
  have hasked := Link.order_ok h
  obtain ⟨-, found, hfound, htype⟩ := Eval.objectType_ok (hl.target ▸ hs) h
  obtain rfl := Option.some.inj (hcell.symm.trans hfound)
  cases hc : l.target.connected with
  | false =>
    simp only [Target.objectType, Target.checkObject, Target.checkConnected, hc] at hasked
    contradiction
  | true =>
    have hchecked := Target.checkObject_of_object ((hl'.connected hl).trans hc) hcell'
    exact Link.order_answered hserved (objectType_of_cell hs' hchecked htype)

theorem field_again {name : String} {datum : Option Datum}
    (h : (liftM (Remote.field id name) : Eval (Option Datum)) l = .ok datum l₁) :
    (liftM (Remote.field id' name) : Eval (Option Datum)) l' = .ok datum l'.counted := by
  obtain ⟨hfield, -⟩ := Link.ask_ok h
  have hsame := Target.checkObject_congr (hl'.connected hl) hcell hcell'
  refine Link.ask_answered (served_later hl hl' (Link.call_served h).1) ?_
  rw [Target.field_congr hsame (hl'.types hl), hfield]

theorem invoke_again {method : MethodId}
    (h : (liftM (Remote.invoke scope.thread (.object id) method []) : Eval Datum) l =
      .ok (.object inner) l₁) :
    ∃ inner' l₁', (liftM (Remote.invoke scope.thread (.object id') method []) : Eval Datum) l' =
      .ok (.object inner') l₁' := by
  have hserved := served_later hl hl' (Link.call_served h).1
  obtain ⟨m, behaviour, record, hcheck, hperform⟩ := Target.invoke_ok (Link.call_ok h)
  have hcheck' : l'.target.checkInvocation scope.thread (some (.object id')) method =
      .ok (m, behaviour) := by
    rw [Target.checkInvocation_object hcell, hl.target] at hcheck
    rw [Target.checkInvocation_object hcell', checkInvocation_later hl'.underway hcheck]
  obtain ⟨d', t₁', hd', hsame⟩ := Target.perform_ok hperform
    (t := l'.target.logging ⟨scope.thread, method, m.name, some (.object id'), []⟩)
    (hl'.types hl).symm
  obtain ⟨inner', rfl⟩ : ∃ inner', d' = .object inner' := by
    obtain rfl | ⟨_, inner', -, rfl⟩ := hsame
    · exact ⟨inner, rfl⟩
    · exact ⟨inner', rfl⟩
  have hinvoke : l'.target.invoke scope.thread (.object id') method [] =
      (.ok (.object inner'), t₁') := by
    rw [Target.invoke, Target.run_eq hcheck', hd']
  exact ⟨inner', _, Link.call_run hserved hinvoke⟩

theorem unboxByAccessor_again {type : TypeId} {kind : PrimitiveKind}
    (h : scope.unboxByAccessor id type kind l = .ok (.object inner) l₁) :
    ∃ inner' l₁', scope.unboxByAccessor id' type kind l' = .ok (.object inner') l₁' := by
  obtain ⟨methods, m, d, l₂, l₃, l₄, hmethods, hm, hguard, hrun, hread⟩ :=
    unboxByAccessor_ok_iff.mp h
  obtain rfl : .object inner = d := Option.some.inj (datum?_of_ofDatum hread)
  have hl₂ := (asks_methodsByName type _).here _ _ _ hl hmethods
  have hl₃ := (asks_ensureInvocable scope).here _ _ _ hl₂ hguard
  obtain ⟨_, l₂', hmethods', rfl, hl₂'⟩ :=
    (asks_methodsByName type _).repeats _ _ _ hl hmethods l' hl'
  obtain ⟨_, l₃', hguard', rfl, hl₃'⟩ :=
    (asks_ensureInvocable scope).repeats _ _ _ hl₂ hguard l₂' hl₂'
  have hcell₃ : l₃.target.object? id = some cell := by rw [hl₃.target, ← hl.target, hcell]
  have hcell₃' : l₃'.target.object? id' = some cell := by
    rw [ensureInvocable_ok hguard', (Link.ask_ok hmethods').2, hcell']
  obtain ⟨inner', l₄', hrun'⟩ := invoke_again hl₃ hl₃' hcell₃ hcell₃' hrun
  exact ⟨inner', l₄', unboxByAccessor_ok_iff.mpr
    ⟨methods, m, .object inner', l₂', l₃', l₄', hmethods', hm, hguard', hrun', rfl⟩⟩

/-- What can be unboxed here can be unboxed later on, and so can another box with the same cell. -/
theorem unbox?_again (h : scope.unbox? (.object id) l = .ok (some (.object inner)) l₁) :
    ∃ inner' l₁', scope.unbox? (.object id') l' = .ok (some (.object inner')) l₁' := by
  obtain ⟨type, name, kind, datum, l₂, l₃, l₄, htype, hname, hkind, hfield, hfrom⟩ :=
    unbox?_ok_iff.mp h
  obtain ⟨p, -, -, hp, -⟩ | ⟨l₅, hpass, haccessor⟩ := hfrom
  · cases hp
  have hl₂ := (asks_objectType id).here _ _ _ hl htype
  have htype' := objectType_again hl hl' hcell hcell' htype
  have hl₂' : g.Later l'.counted := hl'.of_eq rfl rfl
  have hl₃ := (asks_typeName type).here _ _ _ hl₂ hname
  obtain ⟨_, l₃', hname', rfl, hl₃'⟩ := (asks_typeName type).repeats _ _ _ hl₂ hname _ hl₂'
  have hcell₃ : l₃.target.object? id = some cell := by rw [hl₃.target, ← hl.target, hcell]
  have hcell₃' : l₃'.target.object? id' = some cell := by
    rw [(Link.ask_ok hname').2, Link.counted_target, hcell']
  have hl₄ : g.Here l₄ := hl₃.of_eq (Link.ask_ok hfield).2 (Link.call_served hfield).2
  have hfield' := field_again hl₃ hl₃' hcell₃ hcell₃' hfield
  have hl₄' : g.Later l₃'.counted := hl₃'.of_eq rfl rfl
  obtain ⟨hl₅, l₅', hpass', hl₅'⟩ := passesOver_again hl₄ hl₄' hpass
  have hcell₅ : l₅.target.object? id = some cell := by rw [hl₅.target, ← hl.target, hcell]
  have hcell₅' : l₅'.target.object? id' = some cell := by
    rw [hpass'.target, Link.counted_target, hcell₃']
  obtain ⟨inner', l₁', haccessor'⟩ := unboxByAccessor_again hl₅ hl₅' hcell₅ hcell₅' haccessor
  exact ⟨inner', l₁', unbox?_ok_iff.mpr ⟨type, name, kind, datum, _, _, _, htype', hname', hkind,
    hfield', .inr ⟨l₅', hpass', haccessor'⟩⟩⟩

end Again

/-! ### The same box again -/

theorem Here.opens {n : Nat} (hl : g.Here l) (h : scope.Opens n id l inner l₁) :
    ∃ acts, (Ground.mk acts g.thread g.refuses).Here l₁ := by
  obtain ⟨acts, thread, refuses⟩ := g
  -- Each accessor that is run is one more act in the life of the target.
  induction h generalizing acts with
  | nil id l => exact ⟨acts, hl⟩
  | cons first rest ih =>
    obtain ⟨acts₁, hl₁⟩ := hl.unbox first
    exact ih acts₁ hl₁

theorem Later.opens {n : Nat} (hthread : scope.thread = g.thread) (hl : g.Later l)
    (h : scope.Opens n id l inner l₁) : g.Later l₁ := by
  induction h with
  | nil id l => exact hl
  | cons first rest ih => exact ih (hl.unbox hthread first)

end Ground

namespace Scope

variable {scope : Scope} {id : ObjectId} {l : Link} {k n : Nat}

/-- The `k`-th box has this cell. -/
def CellAt (scope : Scope) (id : ObjectId) (l : Link) (k : Nat) (cell : HeapCell) : Prop :=
  ∃ i l₁, scope.Opens k id l i l₁ ∧ l₁.target.object? i = some cell

theorem CellAt.of_opens {i : ObjectId} {l₁ : Link} {cell : HeapCell} (h : scope.CellAt id l k cell)
    (hopens : scope.Opens k id l i l₁) : l₁.target.object? i = some cell := by
  obtain ⟨i', l₁', hopens', hcell⟩ := h
  obtain ⟨rfl, rfl⟩ := hopens.unique hopens'
  exact hcell

end Scope

namespace Ground

open Scope

section Chain

variable {g : Ground} {scope : Scope} {id : ObjectId} {l : Link} {k k' n : Nat}
  (hthread : scope.thread = g.thread) (hl : g.Here l)

include hl

theorem Here.formed_opens {i : ObjectId} {l₁ : Link} (h : scope.Opens k id l i l₁) :
    l₁.target.Formed := by
  obtain ⟨acts, hl₁⟩ := hl.opens h
  exact hl₁.target ▸ Target.life_formed acts

include hthread

/-- A box in which there is another one is an instance of one of the types. -/
theorem cellAt_of_nests (hn : scope.Nests n id l) (hk : k < n) :
    ∃ type fields, scope.CellAt id l k (.instance type fields) ∧
      type ∈ l.target.types.map (·.id) := by
  obtain ⟨i, l₁, j, l₂, hi, hlast, -⟩ := hn.step hk
  obtain ⟨type, fields, e, kind, m, hcell, he, -⟩ := unbox?_object (hl.formed_opens hi) hlast
  refine ⟨type, fields, ⟨i, l₁, hi, hcell⟩, ?_⟩
  rw [Target.type?, (hl.later.opens hthread hi).types hl] at he
  have hid := List.find?_some he
  exact List.mem_map.mpr ⟨e, List.mem_of_find?_eq_some he, by simpa using hid⟩

/-- The further boxes are met later on than the first ones. -/
theorem here_later_of_opens {i j : ObjectId} {l₁ l₂ : Link} (hk : k ≤ k')
    (hi : scope.Opens k id l i l₁) (hj : scope.Opens k' id l j l₂) :
    ∃ acts, (Ground.mk acts g.thread g.refuses).Here l₁ ∧
      (Ground.mk acts g.thread g.refuses).Later l₂ := by
  obtain ⟨acts, hl₁⟩ := hl.opens hi
  rw [← Nat.add_sub_cancel' hk] at hj
  exact ⟨acts, hl₁, Later.opens hthread hl₁.later (hj.rest hi)⟩

/-- Two boxes of one type hold boxes with the same cell. -/
theorem cellAt_next (hn : scope.Nests (k' + 1) id l) (hk : k ≤ k') {type : TypeId}
    {fields fields' : List (String × Datum)} (hcell : scope.CellAt id l k (.instance type fields))
    (hcell' : scope.CellAt id l k' (.instance type fields')) {cell : HeapCell}
    (hnext : scope.CellAt id l (k + 1) cell) : scope.CellAt id l (k' + 1) cell := by
  obtain ⟨i, l₁, j, l₂, hi, hij, hj⟩ := hn.step (Nat.lt_succ_of_le hk)
  obtain ⟨i', l₁', j', l₂', hi', hij', hj'⟩ := hn.step (Nat.lt_succ_self k')
  have hl₁ := hl.later.opens hthread hi
  have hl₁' := hl.later.opens hthread hi'
  refine ⟨j', l₂', hj', ?_⟩
  -- One accessor answers both times, with the same object or with a new one each time.
  obtain rfl | ⟨cell', hj₂, hj₂'⟩ := unbox?_alike (hl.formed_opens hi) (hl.formed_opens hi')
    ((hl₁'.types hl).trans (hl₁.types hl).symm) ((hl₁'.connected hl).trans (hl₁.connected hl).symm)
    (hcell.of_opens hi) (hcell'.of_opens hi') hij hij'
  · obtain ⟨acts, hl₂, hl₂'⟩ := here_later_of_opens hthread hl (Nat.succ_le_succ hk) hj hj'
    have hkept := hnext.of_opens hj
    rw [hl₂.target] at hkept
    exact hl₂'.underway.adds.object? (Target.life_issued acts) hkept
  · rwa [← Option.some.inj (hj₂.symm.trans (hnext.of_opens hj))]

/-- So they do further inside. -/
theorem cellAt_shift (hn : scope.Nests n id l) (hk : k ≤ k') {type : TypeId}
    {fields fields' : List (String × Datum)} (hcell : scope.CellAt id l k (.instance type fields))
    (hcell' : scope.CellAt id l k' (.instance type fields')) {m : Nat} (hm : k' + 1 + m ≤ n)
    {cell : HeapCell} (hnext : scope.CellAt id l (k + 1 + m) cell) :
    scope.CellAt id l (k' + 1 + m) cell := by
  induction m generalizing cell with
  | zero => exact cellAt_next hthread hl (hn.le hm) hk hcell hcell' hnext
  | succ m ih =>
    have hm' : k' + 1 + m < n := hm
    obtain ⟨type, fields, hbefore, -⟩ :=
      cellAt_of_nests hthread hl hn (show k + 1 + m < n by omega)
    have hbefore' := ih (Nat.le_of_lt hm') hbefore
    have hle : k + 1 + m ≤ k' + 1 + m := by omega
    exact cellAt_next hthread hl (hn.le hm) hle hbefore hbefore' hnext

/-- Where boxes are in one another so deep that two of them are of one type, they go deeper. -/
theorem nests_deeper (hn : scope.Nests n id l) (hlong : l.target.types.length < n) :
    scope.Nests (n + 1) id l := by
  have hinstance (k : Fin n) : ∃ type fields, scope.CellAt id l k (.instance type fields) ∧
      type ∈ l.target.types.map (·.id) := cellAt_of_nests hthread hl hn k.isLt
  choose type fields hcell hmem using hinstance
  have hcard : (l.target.types.map (·.id)).toFinset.card < (Finset.univ : Finset (Fin n)).card := by
    rw [Finset.card_univ, Fintype.card_fin]
    refine Nat.lt_of_le_of_lt (List.toFinset_card_le _) ?_
    rwa [List.length_map]
  obtain ⟨k, -, k', -, hne, hsame⟩ := Finset.exists_ne_map_eq_of_card_lt_of_maps_to hcard
    fun k _ => List.mem_toFinset.mpr (hmem k)
  wlog hlt : k < k' generalizing k k'
  · exact this k' k hne.symm hsame.symm (by omega)
  -- The last box is like the one that is as far behind the `k`-th as it is behind the `k'`-th.
  obtain ⟨m, hm⟩ := Nat.exists_eq_add_of_le (show k' + 1 ≤ n from k'.isLt)
  have hbefore : k + 1 + m < n := by omega
  obtain ⟨_, _, hlike, -⟩ := cellAt_of_nests hthread hl hn hbefore
  have hlast := cellAt_shift hthread hl hn (Nat.le_of_lt hlt) (hcell k) (hsame ▸ hcell k')
    (Nat.le_of_eq hm.symm) hlike
  rw [← hm] at hlast
  obtain ⟨i, l₁, j, l₂, hi, hij, -⟩ := hn.step hbefore
  obtain ⟨last, l', hopens⟩ := hn
  obtain ⟨acts, hl₁, hl'⟩ := here_later_of_opens hthread hl (Nat.le_of_lt hbefore) hi hopens
  obtain ⟨inner, l₃, hinner⟩ :=
    unbox?_again hl₁ hl' (hlike.of_opens hi) (hlast.of_opens hopens) hij
  exact ⟨inner, l₃, hopens.snoc hinner⟩

/-- Boxes that are in one another deeper than there are types have no end. -/
theorem nests_forever (h : scope.Nests (l.target.types.length + 1) id l) (n : Nat) :
    scope.Nests n id l := by
  induction n with
  | zero => exact nests_zero id l
  | succ n ih =>
    by_cases hlong : l.target.types.length < n
    · exact nests_deeper hthread hl ih hlong
    · exact h.le (by omega)

theorem nests_chainBound : scope.Nests l.target.chainBound id l ↔ ∀ n, scope.Nests n id l := by
  constructor
  · intro h
    refine nests_forever hthread hl (h.le ?_)
    rw [Target.chainBound]
    omega
  · intro h
    exact h _

end Chain

end Ground

/-! ### How deep it goes -/

/-- Whether the conversation did not end. -/
def Eval.endless {α : Type} : EStateM.Result EvalError Link α → Bool
  | .error .endless _ => true
  | _ => false

theorem Eval.endless_iff {α : Type} {result : EStateM.Result EvalError Link α} :
    endless result = true ↔ ∃ l', result = .error .endless l' := by
  constructor
  · intro h
    unfold endless at h
    split at h
    · exact ⟨_, rfl⟩
    · contradiction
  · rintro ⟨l', rfl⟩
    rfl

/-- The accessors of boxes return primitives of the kind of the box. -/
def Target.AccessorsKeep (t : Target) : Prop :=
  ∀ type e kind m, t.type? type = some e → e.name = PrimitiveKind.box kind →
    t.accessor? type kind = some m →
      t.Answers m.id [] fun d => ∃ p, d = .primitive p ∧ p.kind = kind

theorem Target.AccessorsKeep.answered {t t' : Target} (h : t.AccessorsKeep) {thread : ThreadId}
    {receiver : Receiver} {type : TypeId} {e : TypeEntry} {kind : PrimitiveKind} {m : Method}
    {d : Datum} (he : t.type? type = some e) (hbox : e.name = PrimitiveKind.box kind)
    (hm : t.accessor? type kind = some m)
    (hinvoke : t.invoke thread receiver m.id [] = (.ok d, t')) :
    ∃ p, d = .primitive p ∧ p.kind = kind :=
  (h type e kind m he hbox hm).of_run (fun _ _ ⟨_, hno, _⟩ => nomatch hno) rfl hinvoke

theorem Value.eq_of_datum?_primitive {v : Value} {p : Primitive}
    (h : v.datum? = some (.primitive p)) : v = .primitive p := by
  cases v with
  | primitive q =>
    cases h
    rfl
  | text s handle => cases handle <;> cases h
  | null | void | array | object | range | placeholder => cases h

namespace Scope

open Eval

/-- The steps do not suffice just if as many boxes are in one another. If they do, further steps
change nothing. -/
def FollowsBoxes {α : Type} (scope : Scope) (f : Nat → ObjectId → Eval α) (l : Link) : Prop :=
  ∀ n id, ((∃ l', f n id l = .error .endless l') ↔ scope.Nests n id l) ∧
    (¬ scope.Nests n id l → ∀ k, f (n + k) id l = f n id l)

variable {scope : Scope} {id : ObjectId} {l l' : Link}

theorem GoesInside.follows {α : Type} {f : Nat → ObjectId → Eval α} (h : GoesInside scope f)
    (l : Link) : scope.FollowsBoxes f l :=
  fun _ _ => ⟨h.endless_iff, h.more⟩

theorem not_nests_of_keeps (hf : l.target.Formed) (hkeep : l.target.AccessorsKeep) :
    ¬ scope.Nests 1 id l := by
  rintro ⟨last, l₁, hopens⟩
  obtain ⟨_, _, hopens, hunbox⟩ := hopens.init
  cases hopens
  obtain ⟨type, fields, e, kind, m, -, he, hbox, hm, hinvoke⟩ := unbox?_object hf hunbox
  obtain ⟨p, hp, -⟩ := hkeep.answered he hbox hm hinvoke
  cases hp

theorem textOf_endless_iff {v : Value} : (∃ l', scope.textOf v l = .error .endless l') ↔
    ∃ id, v = .object id ∧ scope.Nests l.target.chainBound id l := by
  cases v with
  | object id =>
    have hrun : scope.textOf (.object id) l = scope.objectText l.target.chainBound id l := rfl
    rw [hrun, (objectText_goesInside scope).endless_iff]
    simp only [Value.object.injEq, exists_eq_left']
  | null | void | primitive | text | array | range | placeholder =>
    constructor
    · rintro ⟨l', h⟩
      simp only [textOf] at h
      exact absurd h (ends_valueText _ l l')
    · rintro ⟨id, h, -⟩
      cases h

theorem passArgument_endless_iff {param : String} {n : Nat} {v : Value} :
    (∃ l', scope.passArgument param n v l = .error .endless l') ↔
      ∃ id, v = .object id ∧ (PrimitiveKind.ofName? param).isSome ∧ scope.Nests n id l := by
  by_cases hv : ∃ id, v = .object id
  · obtain ⟨id, rfl⟩ := hv
    simp only [Value.object.injEq, exists_eq_left']
    cases hparam : (PrimitiveKind.ofName? param).isSome with
    | true =>
      rw [(passArgument_goesInside scope hparam).endless_iff]
      simp only [true_and]
    | false =>
      have hrun : scope.passArgument param n (.object id) l = .ok (.object id) l := by
        have hnone : (PrimitiveKind.ofName? param).isNone := by simpa using hparam
        cases n <;> rw [passArgument, if_pos hnone] <;> rfl
      simp only [hrun, Bool.false_eq_true, false_and, iff_false]
      rintro ⟨l', h⟩
      cases h
  · obtain ⟨hends, hsame⟩ := scope.passArgument_plain param fun id h => hv ⟨id, h⟩
    constructor
    · rintro ⟨l', h⟩
      rw [hsame] at h
      exact absurd h (hends l l')
    · rintro ⟨id, h, -⟩
      exact absurd ⟨id, h⟩ hv

/-- What comes out of a box is the primitive of its kind in its field, or whatever its accessor
answers, of which the kind is not checked. Where the accessors keep to the kind, a primitive of the
kind comes out, and no box is in another one. In any case the text of a value and passing it as a
primitive go as deep as boxes are in one another. They do not end just where the boxes do not. -/
theorem unboxing_depth {acts : List Target.Act} {refused : Call → Option Fault} {l : Link}
    (scope : Scope) (hlife : l.target = Target.life acts)
    (hrefuses : l.refuses = fun _ => refused) :
    (∀ v w l', scope.unbox? v l = .ok (some w) l' →
      ∃ id type fields e kind, v = .object id ∧
        l.target.object? id = some (.instance type fields) ∧ l.target.type? type = some e ∧
        e.name = PrimitiveKind.box kind ∧
        ((∃ p, w = .primitive p ∧ p.kind = kind ∧ fields.lookup "value" = some (.primitive p)) ∨
          ∃ m d, l.target.accessor? type kind = some m ∧
            l.target.invoke scope.thread (.object id) m.id [] = (.ok d, l'.target) ∧
            w.datum? = some d ∧
            (l.target.AccessorsKeep → ∃ p, w = .primitive p ∧ p.kind = kind))) ∧
    (l.target.AccessorsKeep → ∀ id, ¬ scope.Nests 1 id l) ∧
    scope.FollowsBoxes scope.objectText l ∧
    (∀ param, (PrimitiveKind.ofName? param).isSome →
      scope.FollowsBoxes (fun n id => scope.passArgument param n (.object id)) l) ∧
    (∀ v, (∃ l', scope.textOf v l = .error .endless l') ↔
      ∃ id, v = .object id ∧ ∀ n, scope.Nests n id l) ∧
    ∀ param v, (∃ l', scope.passArgument param l.target.chainBound v l = .error .endless l') ↔
      ∃ id, v = .object id ∧ (PrimitiveKind.ofName? param).isSome ∧ ∀ n, scope.Nests n id l := by
  have hf : l.target.Formed := hlife ▸ Target.life_formed acts
  have hhere : (Ground.mk acts scope.thread refused).Here l := ⟨hlife, hrefuses⟩
  have hforever (id : ObjectId) : scope.Nests l.target.chainBound id l ↔
      ∀ n, scope.Nests n id l := Ground.nests_chainBound rfl hhere
  refine ⟨?_, fun hkeep id => not_nests_of_keeps hf hkeep, (objectText_goesInside scope).follows l,
    ?_, ?_, ?_⟩
  · intro v w l' h
    cases v with
    | object id =>
      obtain ⟨type, fields, e, kind, hcell, he, hbox, hfield | ⟨m, d, hm, hinvoke, hd⟩⟩ :=
        unbox?_source hf h
      · exact ⟨id, type, fields, e, kind, rfl, hcell, he, hbox, .inl hfield⟩
      · refine ⟨id, type, fields, e, kind, rfl, hcell, he, hbox, .inr ⟨m, d, hm, hinvoke, hd, ?_⟩⟩
        intro hkeep
        obtain ⟨p, rfl, hp⟩ := hkeep.answered he hbox hm hinvoke
        exact ⟨p, Value.eq_of_datum?_primitive hd, hp⟩
    | null | void | primitive | text | array | range | placeholder => cases h
  · intro param hparam
    exact (passArgument_goesInside scope hparam).follows l
  · intro v
    simp only [textOf_endless_iff, hforever]
  · intro param v
    simp only [passArgument_endless_iff, hforever]

open Target in
/-- An `Integer` in which there is a `Long` of five shows as five, since there is no further box. -/
theorem unboxing_depth_one :
    let acts : List Act := [.change (.define { name := "java.lang.Long" } true),
      .change (.newObject 5 [("value", .primitive (.long 5))]),
      .change (.define { name := "java.lang.Integer", methods := [
        { name := "intValue", behaviour := .returns (.object 6) }] } true),
      .change (.newObject 7 []), .change .addThread]
    let scope : Scope := ⟨10, 11, {}⟩
    let l : Link := { target := life acts }
    l.target = life acts ∧ (l.refuses = fun _ _ => none) ∧
      scope.Nests 1 9 l ∧ ¬ scope.Nests 2 9 l ∧
      (∃ l', scope.objectText 2 9 l = .ok "5" l') ∧
      ∀ k, scope.objectText (2 + k) 9 l = scope.objectText 2 9 l := by
  intro acts scope l
  obtain ⟨-, -, hfollows, -⟩ := @unboxing_depth acts (fun _ => none) l scope rfl rfl
  have hone : endless (scope.objectText 1 9 l) = true := by
    decide +kernel
  have htwo : (Link.outcome (scope.objectText 2 9) l).1.toOption = some "5" := by
    decide +kernel
  have htext := ok_of_outcome htwo
  have hdeep : ¬ scope.Nests 2 9 l := by
    rw [← (hfollows 2 9).1, htext]
    rintro ⟨l', h⟩
    cases h
  exact ⟨rfl, rfl, (hfollows 1 9).1.mp (endless_iff.mp hone), hdeep, ⟨_, htext⟩,
    (hfollows 2 9).2 hdeep⟩

open Target in
/-- An `Integer` whose accessor returns a `Long` is unboxed to an object. An `Integer` whose
accessor returns it is in itself, and showing it does not end. -/
theorem unboxing_not_primitive :
    let long : List Act := [.change (.define { name := "java.lang.Long" } true),
      .change (.newObject 5 [("value", .primitive (.long 5))]),
      .change (.define { name := "java.lang.Integer", methods := [
        { name := "intValue", behaviour := .returns (.object 6) }] } true),
      .change (.newObject 7 []), .change .addThread]
    let itself : List Act := [.change (.define { name := "java.lang.Integer", methods := [
        { name := "intValue", behaviour := .returns (.object 7) }] } true),
      .change (.newObject 5 []), .change .addThread]
    (∃ inner l', unbox? ⟨10, 11, {}⟩ (.object 9) { target := life long } =
      .ok (some (.object inner)) l') ∧
    ∃ l', textOf ⟨8, 9, {}⟩ (.object 7) { target := life itself } = .error .endless l' := by
  intro long itself
  constructor
  · have hrun : endless (objectText ⟨10, 11, {}⟩ 1 9 { target := life long }) = true := by
      decide +kernel
    have hnests := (objectText_goesInside _).endless_iff.mp (endless_iff.mp hrun)
    obtain ⟨inner, l', hunbox, -⟩ := nests_succ_iff.mp hnests
    exact ⟨inner, l', hunbox⟩
  · have hrun : endless (textOf ⟨8, 9, {}⟩ (.object 7) { target := life itself }) = true := by
      decide +kernel
    exact endless_iff.mp hrun

end Scope

end Debugger
