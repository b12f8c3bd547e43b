import Mathlib.Data.List.Forall2
import Debugger.Proofs.Additions
import Debugger.Proofs.Selection

/-!
Arguments on their way into the target: of the overload that is taken, each argument is passed as
what its parameter asks for. Whether a value converts and how it is converted are decided apart from
each other; here the two are held against each other.
-/

namespace Debugger

/-! ### Passing -/

/-- What may be handed to a parameter: a primitive of exactly its kind where it names one, and
otherwise null or a reference. -/
def Datum.Fits (param : String) : Datum → Prop
  | .primitive p => PrimitiveKind.ofName? param = some p.kind
  | .null | .string _ | .array _ | .object _ => PrimitiveKind.ofName? param = none
  | .void => False

/-- Whether a datum is null or an object. -/
def Datum.IsReference : Datum → Prop
  | .null | .object _ => True
  | .void | .primitive _ | .string _ | .array _ => False

theorem PrimitiveKind.box_of_ofBox? {name : String} {kind : PrimitiveKind}
    (h : ofBox? name = some kind) : kind.box = name := by
  simpa using List.find?_some h

theorem PrimitiveKind.ofBox?_box (kind : PrimitiveKind) : ofBox? kind.box = some kind := by
  cases kind <;> decide +kernel

namespace Target

/-- Whatever the method answers to the arguments, it is such a datum. -/
def Answers (t : Target) (method : MethodId) (args : List Datum) (P : Datum → Prop) : Prop :=
  ∀ m behaviour d t', t.method? method = some (m, behaviour) →
    t.perform args behaviour = (.ok d, t') → P d

/-- Boxes hold what they say they hold, and are made by `valueOf`. -/
structure Boxes (t : Target) : Prop where
  /-- The field of a box holds a primitive of its kind, or its accessor returns one. -/
  holds : ∀ id type fields e kind, t.object? id = some (.instance type fields) →
    t.type? type = some e → e.name = PrimitiveKind.box kind →
      (∃ p, fields.lookup "value" = some (.primitive p) ∧ p.kind = kind) ∨
      ∀ methods m, t.methodsByName type (kind.name ++ "Value") = .ok methods →
        (methods.find? fun m => m.params.isEmpty && !m.isStatic) = some m →
          t.Answers m.id [] fun d => ∃ p, d = .primitive p ∧ p.kind = kind
  /-- The `valueOf` of a box returns an object or null. -/
  valueOf : ∀ (p : Primitive) types type methods m, t.listLoaded (some p.kind.box) = .ok types →
    types.head? = some type → t.methodsByName type "valueOf" = .ok methods →
      (methods.find? fun m => m.isStatic && m.params = [p.kind.name]) = some m →
        t.Answers m.id [.primitive p] Datum.IsReference

variable {t t' : Target}

/-- Where nothing is a box there is nothing to hold. -/
theorem Boxes.of_none (h : ∀ e ∈ t.types, PrimitiveKind.ofBox? e.name = none) : t.Boxes where
  holds id type fields e kind _ he hbox := by
    have hno := h e (List.mem_of_find?_eq_some he)
    rw [hbox, PrimitiveKind.ofBox?_box] at hno
    contradiction
  valueOf p types type methods m htypes hhead := by
    rw [listLoaded_ok htypes] at hhead
    have hm : type ∈ (t.types.filter fun e =>
        e.loaded && (some p.kind.box).all (e.name = ·)).map (·.id) := List.mem_of_head? hhead
    obtain ⟨e, he, -⟩ := List.mem_map.mp hm
    obtain ⟨he, hname⟩ := List.mem_filter.mp he
    have hno := h e he
    rw [show e.name = p.kind.box by simp_all, PrimitiveKind.ofBox?_box] at hno
    contradiction

theorem perform_boxes {name : String} {args : List Datum} {d : Datum}
    (h : t.perform args (.boxes name) = (.ok d, t')) : d.IsReference := by
  simp only [perform] at h
  split at h
  · cases h
    trivial
  · cases h
    trivial

/-! ### The target on the way -/

theorem listLoaded_congr (h : t'.types = t.types) (hc : t'.connected = t.connected)
    (name : Option String) : t'.listLoaded name = t.listLoaded name := by
  rw [listLoaded, listLoaded, checkConnected, checkConnected, h, hc]

theorem method?_congr (h : t'.types = t.types) (id : MethodId) : t'.method? id = t.method? id := by
  rw [method?, method?, h]

/-- The target while arguments are passed: there are new cells, and all types are there already. -/
structure Underway (thread : ThreadId) (t t' : Target) : Prop where
  adds : Adds thread t t'
  types : t'.types = t.types
  connected : t'.connected = t.connected

theorem Underway.refl (thread : ThreadId) (t : Target) : Underway thread t t :=
  ⟨.refl thread t, rfl, rfl⟩

/-- Types and connection stay as they are where the type of strings is there. -/
def Settles (t t' : Target) : Prop :=
  (t.typeNamed? TypeName.string).isSome → t'.types = t.types ∧ t'.connected = t.connected

theorem Settles.refl (t : Target) : t.Settles t :=
  fun _ => ⟨rfl, rfl⟩

theorem Settles.trans {t t' t'' : Target} (h : t.Settles t') (h' : t'.Settles t'') :
    t.Settles t'' := by
  intro hs
  obtain ⟨htypes, hconnected⟩ := h hs
  rw [typeNamed?, ← htypes] at hs
  obtain ⟨htypes', hconnected'⟩ := h' hs
  exact ⟨htypes'.trans htypes, hconnected'.trans hconnected⟩

/-- A step that adds and settles nothing new is one on the way. -/
theorem Underway.step {thread : ThreadId} {t t' t'' : Target} (hf : t.Formed)
    (h : t.Underway thread t') (hadds : t'.Adds thread t'') (hsettles : t'.Settles t'') :
    t.Underway thread t'' := by
  obtain ⟨string, hs⟩ := hf.typeNamed?_string
  have hstrings : (t'.typeNamed? TypeName.string).isSome := by
    rw [typeNamed?, h.types, ← typeNamed?, hs]
    rfl
  obtain ⟨htypes, hconnected⟩ := hsettles hstrings
  exact ⟨h.adds.trans hadds, htypes.trans h.types, hconnected.trans h.connected⟩

theorem run_settles (t : Target) (thread : ThreadId) (receiver : Option Receiver)
    (method : MethodId) (args : List Datum) :
    t.Settles (t.run thread receiver method args).2 := by
  unfold run
  split
  · exact .refl t
  · rename_i m behaviour _
    cases behaviour with
    | returns | throws | computes => exact fun _ => ⟨rfl, rfl⟩
    | boxes name =>
      simp only [perform]
      split <;> exact fun _ => ⟨rfl, rfl⟩

theorem construct_settles (t : Target) (thread : ThreadId) (type : TypeId)
    (constructor : MethodId) (args : List Datum) :
    t.Settles (t.construct thread type constructor args).2 := by
  have hrun := t.run_settles thread none constructor args
  unfold construct
  split
  · rename_i hvoid
    rw [hvoid] at hrun
    exact hrun
  · exact hrun

theorem objectType_settles {id : ObjectId} {type : TypeId}
    (h : t.objectType id = .ok (type, t')) : t.Settles t' := by
  intro hs
  obtain ⟨string, hs⟩ := Option.isSome_iff_exists.mp hs
  obtain ⟨cell, -, hrun⟩ := objectType_ok h
  have hsame : t' = t := by
    cases cell with
    | «instance» | array => exact congrArg Prod.snd hrun
    | string text =>
      simp only [ensureType, hs] at hrun
      exact congrArg Prod.snd hrun
  rw [hsame]
  exact ⟨rfl, rfl⟩

theorem wrapString_settles {text : String} {id : ObjectId}
    (h : t.wrapString text = .ok (id, t')) : t.Settles t' := by
  simp only [wrapString, bind, Except.bind] at h
  split at h
  · contradiction
  · cases h
    exact fun _ => ⟨rfl, rfl⟩

end Target

namespace Link

def Settled (l l' : Link) : Prop :=
  l.target.Settles l'.target

/-- No method that runs changes the types, whatever the settings are. -/
theorem settled_invoke (thread : ThreadId) (receiver : Receiver) (method : MethodId)
    (args : List Datum) : Leads Settled (Remote.invoke thread receiver method args) :=
  call_leads (fun _ _ _ h => h) .refl _ fun t => t.run_settles thread (some receiver) method args

theorem settled_lasting (scope : Scope) : Lasting Settled scope :=
  .of_calls (fun l => .refl l.target) Target.Settles.trans
    (fun c _ => call_leads (fun _ _ _ h => h) .refl c fun t => .refl t)
    (fun _ => order_leads (fun _ _ _ h => h) .refl _ fun _ _ _ => Target.objectType_settles)
    (fun _ => order_leads (fun _ _ _ h => h) .refl _ fun _ _ _ => Target.wrapString_settles)
    (fun _ => settled_invoke scope.thread)
    fun _ type constructor args => call_leads (fun _ _ _ h => h) .refl _ fun t =>
      t.construct_settles scope.thread type constructor args

/-- Nor does it take away anything. -/
theorem gains_invoke (thread : ThreadId) (receiver : Receiver) (method : MethodId)
    (args : List Datum) : Leads (Gains thread) (Remote.invoke thread receiver method args) :=
  call_leads (fun _ _ _ h => h) (.refl thread) _ fun t =>
    (Target.adds_admits thread True).run trivial t (some receiver) method args

end Link

/-! ### Conversion -/

namespace Primitive

theorem ofInteger_kind {v : Int64} {k : PrimitiveKind} {q : Primitive}
    (h : ofInteger v k = some q) : q.kind = k := by
  cases k <;> first | contradiction | (cases h; rfl)

theorem ofDouble_kind {v : Float} {k : PrimitiveKind} {q : Primitive}
    (h : ofDouble v k = some q) : q.kind = k := by
  cases k <;> first | contradiction | (cases h; rfl)

/-- What comes out of a conversion is of the kind converted to. -/
theorem convert_kind {p q : Primitive} {k : PrimitiveKind} (h : p.convert k = some q) :
    q.kind = k := by
  cases p with
  | boolean b =>
    simp only [convert] at h
    split at h
    · cases h
      exact Eq.symm ‹_›
    · contradiction
  | float v | double v => exact ofDouble_kind h
  | byte v | short v | int v | long v | char c => exact ofInteger_kind h

end Primitive

theorem Datum.IsReference.fits {param : String} (hparam : PrimitiveKind.ofName? param = none)
    {d : Datum} (h : d.IsReference) : d.Fits param := by
  cases d with
  | null | object => exact hparam
  | void | primitive | string | array => contradiction

namespace Target

variable {thread : ThreadId} {t t' t'' : Target}

/-- Behaviour answers the same to the same arguments, save that a new object is another one. -/
theorem perform_ok {args : List Datum} {behaviour : Behaviour} {d : Datum}
    (h : t'.perform args behaviour = (.ok d, t'')) (htypes : t'.types = t.types) :
    ∃ d' t₁, t.perform args behaviour = (.ok d', t₁) ∧
      (d = d' ∨ ∃ i j, d = .object i ∧ d' = .object j) := by
  cases behaviour with
  | returns value | computes function =>
    cases h
    exact ⟨_, t, rfl, .inl rfl⟩
  | throws exception => cases (Prod.mk.inj h).1
  | boxes name =>
    have hnamed : t'.typeNamed? name = t.typeNamed? name := by
      rw [typeNamed?, typeNamed?, htypes]
    simp only [perform, hnamed] at h ⊢
    cases hbox : t.typeNamed? name with
    | none =>
      simp only [hbox] at h
      cases h
      exact ⟨_, _, rfl, .inl rfl⟩
    | some type =>
      simp only [hbox] at h
      cases h
      exact ⟨_, _, rfl, .inr ⟨_, _, rfl, rfl⟩⟩

theorem checkInvocation_method {thread : ThreadId} {receiver : Option Receiver} {method : MethodId}
    {m : Method × Behaviour} (h : t.checkInvocation thread receiver method = .ok m) :
    t.method? method = some m := by
  simp only [checkInvocation, bind, Except.bind] at h
  repeat' split at h
  all_goals first | contradiction | (cases h; assumption)

theorem Answers.of_run {method : MethodId} {receiver : Option Receiver} {args : List Datum}
    {P : Datum → Prop} (h : t.Answers method args P)
    (hobject : ∀ i j, P (.object i) → P (.object j)) (htypes : t'.types = t.types) {d : Datum}
    (hrun : t'.run thread receiver method args = (.ok d, t'')) : P d := by
  unfold run at hrun
  split at hrun
  · cases (Prod.mk.inj hrun).1
  · rename_i m behaviour hcheck
    have hm : t.method? method = some (m, behaviour) := by
      rw [← method?_congr htypes]
      exact checkInvocation_method hcheck
    obtain ⟨d', t₁, hd, hsame⟩ := perform_ok hrun htypes
    obtain rfl | ⟨i, j, rfl, rfl⟩ := hsame
    · exact h m behaviour d t₁ hm hd
    · exact hobject j i (h m behaviour _ t₁ hm hd)

end Target

namespace Scope

variable {scope : Scope} {t : Target} {l l' : Link}

/-- On the way the target stays one on the way. -/
theorem underway_of_leads {α : Type} {x : Eval α} {a : α} (hf : t.Formed)
    (hu : t.Underway scope.thread l.target) (hgains : Leads (Link.Gains scope.thread) x)
    (hsettled : Leads Link.Settled x) (h : x l = .ok a l') :
    t.Underway scope.thread l'.target := by
  have hadds := hgains l
  have htypes := hsettled l
  unfold Link.after at hadds htypes
  rw [h] at hadds htypes
  exact hu.step hf hadds htypes

theorem boxed_ok (hb : t.Boxes) (hu : t.Underway scope.thread l.target) {p : Primitive} {d : Datum}
    (h : scope.boxed p l = .ok d l') : d.IsReference := by
  obtain ⟨types, l₁, htypes, h⟩ := Eval.bind_ok h
  obtain ⟨htypes, h₁⟩ := Link.ask_ok htypes
  rw [Target.listLoaded_congr hu.types hu.connected] at htypes
  cases htype : types.head? with
  | none =>
    simp only [htype] at h
    contradiction
  | some type =>
    simp only [htype] at h
    obtain ⟨methods, l₂, hmethods, h⟩ := Eval.bind_ok h
    obtain ⟨hmethods, h₂⟩ := Link.ask_ok hmethods
    rw [h₁, Target.methodsByName_congr hu.types hu.connected] at hmethods
    cases hm : methods.find? fun m => m.isStatic && m.params = [p.kind.name] with
    | none =>
      simp only [hm] at h
      contradiction
    | some m =>
      simp only [hm] at h
      refine (hb.valueOf p types type methods m htypes htype hmethods hm).of_run
        (fun _ _ h => h) ?_ (Link.call_ok h)
      rw [h₂, h₁, hu.types]

/-- The guard only asks. -/
theorem ensureInvocable_ok {u : Unit} (h : scope.ensureInvocable l = .ok u l') :
    l'.target = l.target := by
  unfold ensureInvocable at h
  cases ha : scope.settings.allowInvocation with
  | false =>
    simp only [ha] at h
    contradiction
  | true =>
    simp only [ha, ↓reduceIte] at h
    obtain ⟨suspended, l₁, hsuspended, h⟩ := Eval.bind_ok h
    cases suspended with
    | false => contradiction
    | true =>
      cases h
      exact (Link.ask_ok hsuspended).2

/-- A field that holds no primitive of the kind is passed over, once its value is fetched. -/
def PassesOver (kind : PrimitiveKind) (datum : Option Datum) (l l' : Link) : Prop :=
  match datum with
  | none => l' = l
  | some d => ∃ v, Eval.ofDatum d l = .ok v l' ∧ v.kind? ≠ some kind

theorem PassesOver.target {kind : PrimitiveKind} {datum : Option Datum}
    (h : PassesOver kind datum l l') : l'.target = l.target := by
  cases datum with
  | none => rw [show l' = l from h]
  | some d =>
    obtain ⟨v, hv, -⟩ := h
    exact Eval.ofDatum_ok hv

theorem PassesOver.primitive {kind : PrimitiveKind} {p : Primitive}
    (h : PassesOver kind (some (.primitive p)) l l') : some p.kind ≠ some kind := by
  obtain ⟨v, hv, hkind⟩ := h
  cases hv
  exact hkind

theorem unboxByAccessor_ok_iff {id : ObjectId} {type : TypeId} {kind : PrimitiveKind} {v : Value} :
    scope.unboxByAccessor id type kind l = .ok v l' ↔ ∃ methods m d l₁ l₂ l₃,
      (liftM (Remote.methodsByName type (kind.name ++ "Value")) : Eval (List Method)) l =
        .ok methods l₁ ∧
      (methods.find? fun m => m.params.isEmpty && !m.isStatic) = some m ∧
      scope.ensureInvocable l₁ = .ok () l₂ ∧
      (liftM (Remote.invoke scope.thread (.object id) m.id []) : Eval Datum) l₂ = .ok d l₃ ∧
      Eval.ofDatum d l₃ = .ok v l' := by
  constructor
  · intro h
    obtain ⟨methods, l₁, hmethods, h⟩ := Eval.bind_ok h
    cases hm : methods.find? fun m => m.params.isEmpty && !m.isStatic with
    | none =>
      simp only [hm] at h
      contradiction
    | some m =>
      simp only [hm] at h
      obtain ⟨u, l₂, hguard, h⟩ := Eval.bind_ok h
      obtain ⟨d, l₃, hrun, h⟩ := Eval.bind_ok h
      exact ⟨methods, m, d, l₁, l₂, l₃, hmethods, hm, hguard, hrun, h⟩
  · rintro ⟨methods, m, d, l₁, l₂, l₃, hmethods, hm, hguard, hrun, hv⟩
    rw [unboxByAccessor, Eval.bind_run hmethods]
    simp only [hm]
    rw [invokeGetter, Eval.bind_run hguard, Eval.bind_run hrun]
    exact hv

/-- Where the value comes from that unboxing an object gives: from its field, if that holds a
primitive of the kind that the name of its type stands for, and otherwise from the accessor. -/
theorem unbox?_ok_iff {id : ObjectId} {w : Value} :
    scope.unbox? (.object id) l = .ok (some w) l' ↔ ∃ type name kind datum l₁ l₂ l₃,
      (liftM (Remote.objectType id) : Eval TypeId) l = .ok type l₁ ∧
      (liftM (Remote.typeName type) : Eval String) l₁ = .ok name l₂ ∧
      PrimitiveKind.ofBox? name = some kind ∧
      (liftM (Remote.field id "value") : Eval (Option Datum)) l₂ = .ok datum l₃ ∧
      ((∃ p, datum = some (.primitive p) ∧ p.kind = kind ∧ w = .primitive p ∧ l' = l₃) ∨
        ∃ l₄, PassesOver kind datum l₃ l₄ ∧ scope.unboxByAccessor id type kind l₄ = .ok w l') := by
  constructor
  · intro h
    obtain ⟨type, l₁, htype, h⟩ := Eval.bind_ok h
    obtain ⟨name, l₂, hname, h⟩ := Eval.bind_ok h
    cases hkind : PrimitiveKind.ofBox? name with
    | none =>
      simp only [hkind] at h
      cases h
    | some kind =>
      simp only [hkind] at h
      obtain ⟨datum, l₃, hfield, h⟩ := Eval.bind_ok h
      refine ⟨type, name, kind, datum, l₁, l₂, l₃, htype, hname, hkind, hfield, ?_⟩
      cases datum with
      | none =>
        obtain ⟨v, hv, hw⟩ := Eval.map_ok h
        cases hw
        exact .inr ⟨l₃, rfl, hv⟩
      | some d =>
        obtain ⟨v, l₄, hv, h⟩ := Eval.bind_ok h
        split at h
        · rename_i hvkind
          cases h
          cases w with
          | primitive p =>
            obtain rfl : .primitive p = d := Option.some.inj (Eval.datum?_of_ofDatum hv)
            cases hv
            exact .inl ⟨p, rfl, Option.some.inj hvkind, rfl, rfl⟩
          | null | void | text | array | object | range | placeholder => contradiction
        · rename_i hvkind
          obtain ⟨v', hv', hw⟩ := Eval.map_ok h
          cases hw
          exact .inr ⟨l₄, ⟨v, hv, hvkind⟩, hv'⟩
  · rintro ⟨type, name, kind, datum, l₁, l₂, l₃, htype, hname, hkind, hfield, hfrom⟩
    rw [unbox?, Eval.bind_run htype, Eval.bind_run hname]
    simp only [hkind]
    rw [Eval.bind_run hfield]
    obtain ⟨p, rfl, hp, rfl, rfl⟩ | ⟨l₄, hpass, haccessor⟩ := hfrom
    · have hread : Eval.ofDatum (.primitive p) l' = .ok (.primitive p) l' := rfl
      have hpkind : (Value.primitive p).kind? = some kind := congrArg some hp
      dsimp only
      rw [Eval.bind_run hread, if_pos hpkind]
      rfl
    · cases datum with
      | none =>
        obtain rfl := hpass
        exact Eval.map_run haccessor
      | some d =>
        obtain ⟨v, hv, hvkind⟩ := hpass
        dsimp only
        rw [Eval.bind_run hv, if_neg hvkind]
        exact Eval.map_run haccessor

theorem unboxByAccessor_ok (hu : t.Underway scope.thread l.target) {id : ObjectId} {type : TypeId}
    {kind : PrimitiveKind} (hanswers : ∀ methods m,
      t.methodsByName type (kind.name ++ "Value") = .ok methods →
        (methods.find? fun m => m.params.isEmpty && !m.isStatic) = some m →
          t.Answers m.id [] fun d => ∃ p, d = .primitive p ∧ p.kind = kind) {v : Value}
    (h : scope.unboxByAccessor id type kind l = .ok v l') : ∃ p, v = .primitive p := by
  obtain ⟨methods, m, d, l₁, l₂, l₃, hmethods, hm, hguard, hrun, hv⟩ :=
    unboxByAccessor_ok_iff.mp h
  obtain ⟨hmethods, h₁⟩ := Link.ask_ok hmethods
  rw [Target.methodsByName_congr hu.types hu.connected] at hmethods
  have htypes : l₂.target.types = t.types := by
    rw [ensureInvocable_ok hguard, h₁, hu.types]
  obtain ⟨p, rfl, -⟩ := (hanswers methods m hmethods hm).of_run
    (fun _ _ ⟨_, hno, _⟩ => nomatch hno) htypes (Link.call_ok hrun)
  cases hv
  exact ⟨p, rfl⟩

theorem unbox?_ok (hf : t.Formed) (hi : t.Issued) (hb : t.Boxes)
    (hu : t.Underway scope.thread l.target) {id : ObjectId} {cell : HeapCell}
    (hcell : t.object? id = some cell) {inner : Value}
    (h : scope.unbox? (.object id) l = .ok (some inner) l') : ∃ p, inner = .primitive p := by
  obtain ⟨string, hs⟩ := hf.typeNamed?_string
  have hs' : l.target.typeNamed? TypeName.string = some string := by
    rw [Target.typeNamed?, hu.types, ← Target.typeNamed?, hs]
  obtain ⟨type, name, kind, datum, l₁, l₂, l₃, htype, hname, hkind, hfield, hfrom⟩ :=
    unbox?_ok_iff.mp h
  obtain ⟨h₁, cell', hcell', htype⟩ := Eval.objectType_ok hs' htype
  obtain rfl := Option.some.inj (hcell'.symm.trans (hu.adds.object? hi hcell))
  obtain ⟨hname, h₂⟩ := Link.ask_ok hname
  obtain ⟨e, he, rfl⟩ := Target.typeName_ok hname
  rw [h₁, Target.type?, hu.types, ← Target.type?] at he
  obtain ⟨fields, rfl⟩ := hf.cell_of_box hs hcell htype he hkind
  have hbox : e.name = kind.box := (PrimitiveKind.box_of_ofBox? hkind).symm
  obtain ⟨hfield, h₃⟩ := Link.ask_ok hfield
  obtain ⟨p, -, -, rfl, -⟩ | ⟨l₄, hpass, haccessor⟩ := hfrom
  · exact ⟨p, rfl⟩
  · have hu₄ : t.Underway scope.thread l₄.target := by
      rw [hpass.target, h₃, h₂, h₁]
      exact hu
    rcases hb.holds id type fields e kind hcell he hbox with ⟨p, hp, hpkind⟩ | hanswers
    · -- A field of the kind is not passed over.
      have hcell₂ : l₂.target.object? id = some (.instance type fields) := by
        rw [h₂, h₁, hcell']
      obtain rfl : datum = some (.primitive p) := Except.ok.inj (hfield.symm.trans
        (Target.field_of_value (Target.field_connected hfield) hcell₂ hp))
      exact absurd (congrArg some hpkind) hpass.primitive
    · exact unboxByAccessor_ok hu₄ hanswers haccessor

theorem passPrimitive_fits (hb : t.Boxes) (hu : t.Underway scope.thread l.target) {p : Primitive}
    {param : String} {d : Datum} (h : scope.passPrimitive p param l = .ok d l') : d.Fits param := by
  unfold passPrimitive at h
  cases hparam : PrimitiveKind.ofName? param with
  | none =>
    simp only [hparam] at h
    exact (boxed_ok hb hu h).fits hparam
  | some kind =>
    simp only [hparam] at h
    cases hq : p.convert kind with
    | none =>
      simp only [hq] at h
      contradiction
    | some q =>
      simp only [hq] at h
      cases h
      exact hparam.trans (congrArg some (Primitive.convert_kind hq).symm)

/-- What a converting value is passed as fits the parameter. -/
theorem passArgument_fits (hf : t.Formed) (hi : t.Issued) (hb : t.Boxes)
    (hu : t.Underway scope.thread l.target) {param : String} {n : Nat} {v : Value} {d : Datum}
    (hv : t.Converts param v) (harray : ∀ id, v = .array id → t.HoldsArray id)
    (h : scope.passArgument param n v l = .ok d l') : d.Fits param := by
  cases v <;> unfold passArgument at h
  case null =>
    cases h
    exact hv
  case void | range | placeholder => contradiction
  case primitive p => exact passPrimitive_fits hb hu h
  case text s handle =>
    obtain ⟨id, l₁, -, h⟩ := Eval.bind_ok h
    cases h
    exact hv
  case array id =>
    cases h
    exact hv (harray id rfl)
  case object id =>
    obtain ⟨cell, hcell⟩ := hv
    split at h
    · rename_i hparam
      cases h
      exact Option.isNone_iff_eq_none.mp hparam
    · cases n with
      | zero => contradiction
      | succ n =>
        obtain ⟨inner, l₁, hinner, h⟩ := Eval.bind_ok h
        cases inner with
        | none =>
          obtain ⟨name, l₂, -, h⟩ := Eval.bind_ok h
          contradiction
        | some inner =>
          obtain ⟨p, rfl⟩ := unbox?_ok hf hi hb hu hcell hinner
          have hu₁ := underway_of_leads hf hu ((Link.gains_lasting scope).unbox? _)
            ((Link.settled_lasting scope).unbox? _) hinner
          dsimp only at h
          unfold passArgument at h
          exact passPrimitive_fits hb hu₁ h

theorem passArguments_fits (hf : t.Formed) (hi : t.Issued) (hb : t.Boxes)
    (hu : t.Underway scope.thread l.target) {args : List Value} {params : List String}
    (hlength : params.length = args.length) (hargs : ∀ x ∈ args.zip params, t.Converts x.2 x.1)
    (harrays : ∀ id, .array id ∈ args → t.HoldsArray id) {data : List Datum}
    (h : scope.passArguments (args.zip params) l = .ok data l') :
    List.Forall₂ Datum.Fits params data := by
  induction args generalizing params l data with
  | nil =>
    obtain rfl := List.eq_nil_of_length_eq_zero hlength
    cases h
    exact .nil
  | cons v args ih =>
    cases params with
    | nil => contradiction
    | cons param params =>
      have hpass : ∃ d l₁ rest, scope.passArgument param l.target.chainBound v l = .ok d l₁ ∧
          scope.passArguments (args.zip params) l₁ = .ok rest l' ∧ data = d :: rest := by
        obtain ⟨k, l₀, hk, h⟩ := Eval.bind_ok h
        cases hk
        obtain ⟨d, l₁, hd, h⟩ := Eval.bind_ok h
        obtain ⟨rest, l₂, hrest, h⟩ := Eval.bind_ok h
        cases h
        exact ⟨d, l₁, rest, hd, hrest, rfl⟩
      obtain ⟨d, l₁, rest, hd, hrest, rfl⟩ := hpass
      have hu₁ := underway_of_leads hf hu
        ((Link.gains_lasting scope).passArgument (Link.gains_invoke _) _ _ _)
        ((Link.settled_lasting scope).passArgument (Link.settled_invoke _) _ _ _) hd
      refine .cons (passArgument_fits hf hi hb hu (hargs (v, param) List.mem_cons_self) ?_ hd) ?_
      · rintro id rfl
        exact harrays id List.mem_cons_self
      · exact ih hu₁ (Nat.succ.inj hlength) (fun x hx => hargs x (List.mem_cons_of_mem _ hx))
          (fun id hm => harrays id (List.mem_cons_of_mem _ hm)) hrest

/-- Of the overload that is taken, every parameter gets one datum: a primitive of its kind where it
names one, otherwise null or a reference. Boxes have to hold what they say they hold, and no
supertype of an array may be named like a primitive. -/
theorem arguments_marshalled (acts : List Target.Act) (scope : Scope) {methods : List Method}
    {args : List Value} {m : Method} {l l₁ l₂ l₃ : Link} {data : List Datum}
    (hl : l.target = Target.life acts) (hboxes : (Target.life acts).Boxes)
    (harrays : ∀ id, .array id ∈ args → (Target.life acts).HoldsArray id)
    (hselect : Eval.selectOverload methods args l = .ok (some m) l₁)
    (hsame : l₂.target = l₁.target)
    (hpass : scope.passArguments (args.zip m.params) l₂ = .ok data l₃) :
    List.Forall₂ Datum.Fits m.params data := by
  have hf := Target.life_formed acts
  obtain ⟨h₁, -, hlength, hconverts⟩ := Eval.selectOverload_ok (hl ▸ hf) hselect
  rw [hl] at hconverts h₁
  refine passArguments_fits hf (Target.life_issued acts) hboxes ?_ hlength hconverts harrays hpass
  rw [hsame, h₁]
  exact .refl _ _

open Target in
/-- One method takes a box and an array, and another primitive has to be boxed for it. -/
theorem arguments_marshalled_boxes :
    let acts : List Target.Act := [
      .change (.define { name := "java.lang.Integer", methods := [
        { name := "valueOf", params := ["int"], isStatic := true,
          behaviour := .boxes "java.lang.Integer" }] } true),
      .change (.newObject 5 [("value", .primitive (.int 7))]), .change (.newArray "x" []),
      .change .addThread]
    let m : Method :=
      ⟨1, "m", ["long", "java.lang.Object", "x[]", "java.lang.String"], "void", true⟩
    let args : List Value := [.object 7, .int 3, .array 9, .ofString "a"]
    (life acts).Boxes ∧ (∀ id, .array id ∈ args → (life acts).HoldsArray id) ∧
      ∃ l₁ data l₂, Eval.selectOverload [m] args { target := life acts } = .ok (some m) l₁ ∧
        passArguments ⟨10, 0, {}⟩ (args.zip m.params) l₁ = .ok data l₂ ∧
        List.Forall₂ Datum.Fits m.params data := by
  intro acts m args
  have hboxes : (life acts).Boxes := by
    constructor
    · intro id type fields e kind hcell he hbox
      have hheap : (life acts).heap =
          [(9, .array 8 []), (7, .instance 5 [("value", .primitive (.int 7))])] := by rfl
      obtain ⟨-, rfl, rfl⟩ : id = 7 ∧ type = 5 ∧ fields = [("value", .primitive (.int 7))] := by
        obtain ⟨front, back, hsplit, -⟩ := List.lookup_eq_some_iff.mp hcell
        have hmem : (id, HeapCell.instance type fields) ∈ (life acts).heap := by
          rw [hsplit]
          exact List.mem_append_right _ List.mem_cons_self
        rw [hheap] at hmem
        simpa using hmem
      have hname : ((life acts).type? 5).map (·.name) = some "java.lang.Integer" := by
        decide +kernel
      rw [he, Option.map_some, Option.some.injEq, hbox] at hname
      refine .inl ⟨.int 7, rfl, ?_⟩
      cases kind <;> first | rfl | exact absurd hname (by decide)
    · intro p types type methods m _ _ _ _ found behaviour d t' hm hd
      have hboxing : ∀ e ∈ (life acts).types, ∀ m ∈ e.methods,
          (match m.2 with | .boxes _ => true | _ => false) = true := by decide +kernel
      obtain ⟨e, he, hfound⟩ := List.exists_of_findSome?_eq_some hm
      have hbehaviour := hboxing e he _ (List.mem_of_find?_eq_some hfound)
      cases behaviour with
      | boxes name => exact perform_boxes hd
      | returns | throws | computes => contradiction
  have harrays : ∀ id, .array id ∈ args → (life acts).HoldsArray id := by
    intro id hid
    obtain rfl : id = 9 := by simpa [args, Value.int, Value.ofString] using hid
    exact .of_none (by decide +kernel) (show (life acts).object? 9 = some (.array 8 []) from rfl)
  have hselect := Eval.ok_of_outcome
    (show (Link.outcome (Eval.selectOverload [m] args) { target := life acts }).1.toOption =
      some (some m) by decide +kernel)
  have hpassed : (Link.outcome (passArguments ⟨10, 0, {}⟩ (args.zip m.params))
      (Link.after { target := life acts } (Eval.selectOverload [m] args))).1.toOption.isSome := by
    decide +kernel
  obtain ⟨data, hdata⟩ := Option.isSome_iff_exists.mp hpassed
  have hpass := Eval.ok_of_outcome hdata
  refine ⟨hboxes, harrays, _, _, _, hselect, hpass, ?_⟩
  exact arguments_marshalled acts _ rfl hboxes harrays hselect rfl hpass

open Target in
/-- An array whose type is declared to extend one named `int` is passed for an `int` as it is. -/
theorem arguments_marshalled_supertype :
    let acts : List Target.Act := [.change (.define { name := "int" } true),
      .change (.define { name := "x[]", superclass := some "int" } true),
      .change (.newArray "x" [])]
    let m : Method := ⟨1, "m", ["int"], "void", true⟩
    let l : Link := { target := life acts }
    (life acts).Boxes ∧ (life acts).object? 7 = some (.array 6 []) ∧
      ∃ l₁ data l₂, Eval.selectOverload [m] [.array 7] l = .ok (some m) l₁ ∧
        passArguments ⟨10, 0, {}⟩ (([.array 7] : List Value).zip m.params) l₁ = .ok data l₂ ∧
        ¬ List.Forall₂ Datum.Fits m.params data := by
  intro acts m l
  have hselect := Eval.ok_of_outcome
    (show (Link.outcome (Eval.selectOverload [m] [.array 7]) l).1.toOption = some (some m) by
      decide +kernel)
  refine ⟨.of_none (by decide +kernel), rfl, _, [.array 7], _, hselect, rfl, fun hfits => ?_⟩
  cases hfits with
  | cons hfit _ => exact absurd hfit (by decide +kernel : PrimitiveKind.ofName? "int" ≠ none)

end Scope

end Debugger
