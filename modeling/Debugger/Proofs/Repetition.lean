import Debugger.Proofs.Marshalling

/-!
Asking again. What a conversation was told by a target it is told again later on, when only what
evaluating adds has come on top.
-/

namespace Debugger

/-- A target as it is found, the thread that code is run on, and the calls that are refused, each
kind of call always or never. -/
structure Ground where
  acts : List Target.Act
  thread : ThreadId
  refuses : Call → Option Fault

namespace Target

variable {t t' : Target}

/-- The target with one more invocation in its log. -/
def logging (t : Target) (record : Invocation) : Target :=
  { t with invocations := t.invocations ++ [record] }

theorem run_eq {thread : ThreadId} {receiver : Option Receiver} {method : MethodId} {m : Method}
    {behaviour : Behaviour} (h : t.checkInvocation thread receiver method = .ok (m, behaviour))
    (args : List Datum) : t.run thread receiver method args =
      (t.logging ⟨thread, method, m.name, receiver, args⟩).perform args behaviour := by
  rw [run, h]
  rfl

/-- A method that returns no object makes nothing. -/
theorem perform_object {args : List Datum} {behaviour : Behaviour} {d : Datum}
    (h : t.perform args behaviour = (.ok d, t')) : (∃ id, d = .object id) ∨ t' = t := by
  cases behaviour with
  | returns value | computes function =>
    cases h
    exact .inr rfl
  | throws exception => cases (Prod.mk.inj h).1
  | boxes name =>
    simp only [perform] at h
    split at h
    · cases h
      exact .inr rfl
    · cases h
      exact .inl ⟨_, rfl⟩

end Target

namespace Ground

/-- A link to the target as it is found. -/
structure Here (g : Ground) (l : Link) : Prop where
  target : l.target = Target.life g.acts
  refuses : l.refuses = fun _ => g.refuses

/-- A link to the target later on. -/
structure Later (g : Ground) (l : Link) : Prop where
  underway : (Target.life g.acts).Underway g.thread l.target
  refuses : l.refuses = fun _ => g.refuses

variable {g : Ground} {l l' : Link}

theorem Here.later (h : g.Here l) : g.Later l :=
  ⟨h.target ▸ .refl _ _, h.refuses⟩

theorem Here.of_eq (h : g.Here l) (htarget : l'.target = l.target)
    (hrefuses : l'.refuses = l.refuses) : g.Here l' :=
  ⟨htarget.trans h.target, hrefuses.trans h.refuses⟩

theorem Later.of_eq (h : g.Later l) (htarget : l'.target = l.target)
    (hrefuses : l'.refuses = l.refuses) : g.Later l' :=
  ⟨htarget ▸ h.underway, hrefuses.trans h.refuses⟩

/-- What succeeds here does so later on, with a result that is related. -/
def Repeats (g : Ground) {α : Type} (Q : α → α → Prop) (x : Eval α) : Prop :=
  ∀ l a l₁, g.Here l → x l = .ok a l₁ → ∀ l', g.Later l' → ∃ b l₁', x l' = .ok b l₁' ∧ Q a b ∧
    g.Later l₁'

/-- What succeeds here changes nothing, and later on it succeeds with the same result. -/
structure Asks (g : Ground) {α : Type} (x : Eval α) : Prop where
  here : ∀ l a l₁, g.Here l → x l = .ok a l₁ → g.Here l₁
  repeats : g.Repeats Eq x

section Conversations

variable {α β : Type} {x : Eval α} {f : α → Eval β}

theorem asks_pure (a : α) : g.Asks (pure a : Eval α) where
  here l b l₁ h hx := by
    cases hx
    exact h
  repeats l b l₁ _ hx l' h' := by
    cases hx
    exact ⟨_, l', rfl, rfl, h'⟩

theorem asks_throw (e : EvalError) : g.Asks (throw e : Eval α) where
  here _ _ _ _ hx := nomatch hx
  repeats _ _ _ _ hx := nomatch hx

/-- What cannot succeed here asks for nothing. -/
theorem asks_of_fails (h : ∀ l a l₁, g.Here l → x l ≠ .ok a l₁) : g.Asks x where
  here l a l₁ hl hx := absurd hx (h l a l₁ hl)
  repeats l a l₁ hl hx := absurd hx (h l a l₁ hl)

theorem Asks.then {Q : β → β → Prop} (hx : g.Asks x) (hf : ∀ a, g.Repeats Q (f a)) :
    g.Repeats Q (x >>= f) := by
  intro l b l₂ h hrun l' h'
  obtain ⟨a, l₁, hxl, hfl⟩ := Eval.bind_ok hrun
  obtain ⟨_, l₁', hxl', rfl, h₁'⟩ := hx.repeats l a l₁ h hxl l' h'
  rw [Eval.bind_run hxl']
  exact hf a l₁ b l₂ (hx.here l a l₁ h hxl) hfl l₁' h₁'

/-- What comes last may be read off related results alike. -/
theorem Repeats.read {Q : α → α → Prop} (hx : g.Repeats Q x) {read : α → β}
    (hread : ∀ a b, Q a b → read a = read b) : g.Repeats Eq (do return read (← x)) := by
  intro l b l₁ h hrun l' h'
  obtain ⟨a, l₂, hxl, hb⟩ := Eval.bind_ok hrun
  cases hb
  obtain ⟨a', l₁', hxl', hQ, h₁'⟩ := hx l a l₁ h hxl l' h'
  exact ⟨_, l₁', Eval.bind_run hxl', hread a a' hQ, h₁'⟩

theorem Asks.bind (hx : g.Asks x) (hf : ∀ a, g.Asks (f a)) : g.Asks (x >>= f) where
  here l b l₂ h hrun := by
    obtain ⟨a, l₁, hxl, hfl⟩ := Eval.bind_ok hrun
    exact (hf a).here l₁ b l₂ (hx.here l a l₁ h hxl) hfl
  repeats := hx.then fun a => (hf a).repeats

end Conversations

end Ground

/-! ### Calls -/

namespace Link

variable {α : Type} {c : Call} {l l' : Link} {a : α} {t : Target}

theorem call_run {act : Target → Except Fault α × Target}
    (hserves : l.refuses l.calls c = none) (h : act l.target = (.ok a, t)) :
    (liftM (Link.call c act : Remote α) : Eval α) l = .ok a { l.counted with target := t } := by
  simp only [liftM, monadLift, MonadLift.monadLift, call, hserves, h]
  rfl

theorem ask_answered {act : Target → Except Fault α} (hserves : l.refuses l.calls c = none)
    (h : act l.target = .ok a) :
    (liftM (Link.ask c act : Remote α) : Eval α) l = .ok a l.counted :=
  call_run hserves (by rw [h])

theorem order_answered {act : Target → Except Fault (α × Target)}
    (hserves : l.refuses l.calls c = none) (h : act l.target = .ok (a, t)) :
    (liftM (Link.order c act : Remote α) : Eval α) l = .ok a { l.counted with target := t } :=
  call_run hserves (by simp only [h])

/-- A call that succeeds was not refused. -/
theorem call_served {act : Target → Except Fault α × Target}
    (h : (liftM (Link.call c act : Remote α) : Eval α) l = .ok a l') :
    l.refuses l.calls c = none ∧ l'.refuses = l.refuses := by
  simp only [liftM, monadLift, MonadLift.monadLift, call] at h
  cases hr : l.refuses l.calls c with
  | some fault =>
    simp only [hr] at h
    contradiction
  | none =>
    cases hact : act l.target with
    | mk result t =>
      simp only [hr, hact] at h
      cases result with
      | error fault => contradiction
      | ok b =>
        cases h
        exact ⟨rfl, rfl⟩

theorem order_served {act : Target → Except Fault (α × Target)}
    (h : (liftM (Link.order c act : Remote α) : Eval α) l = .ok a l') :
    l.refuses l.calls c = none ∧ l'.refuses = l.refuses :=
  call_served h

end Link

namespace Ground

variable {g : Ground}

/-- A call that is not refused here is not refused later on. -/
theorem served_later {c : Call} {l l' : Link} (hl : g.Here l) (hl' : g.Later l')
    (h : l.refuses l.calls c = none) : l'.refuses l'.calls c = none := by
  rw [hl.refuses] at h
  rw [hl'.refuses]
  exact h

/-- A call that the target answers alike later on, and that goes on from there. -/
theorem repeats_call {α : Type} {Q : α → α → Prop} {c : Call}
    {act : Target → Except Fault α × Target}
    (h : ∀ a t₁, act (Target.life g.acts) = (.ok a, t₁) →
      ∀ t', (Target.life g.acts).Underway g.thread t' → ∃ b t₁', act t' = (.ok b, t₁') ∧ Q a b ∧
        (Target.life g.acts).Underway g.thread t₁') :
    g.Repeats Q (liftM (Link.call c act : Remote α)) := by
  intro l a l₁ hl hrun l' hl'
  have hact := Link.call_ok hrun
  rw [hl.target] at hact
  obtain ⟨b, t₁', hact', hQ, hu⟩ := h a _ hact l'.target hl'.underway
  have hserves := served_later hl hl' (Link.call_served hrun).1
  exact ⟨b, _, Link.call_run hserves hact', hQ, hu, hl'.refuses⟩

theorem asks_ask {α : Type} {c : Call} {act : Target → Except Fault α}
    (h : ∀ a, act (Target.life g.acts) = .ok a →
      ∀ t', (Target.life g.acts).Underway g.thread t' → act t' = .ok a) :
    g.Asks (liftM (Link.ask c act : Remote α)) where
  here l a l₁ hl hrun := hl.of_eq (Link.ask_ok hrun).2 (Link.call_served hrun).2
  repeats := repeats_call fun a t₁ hact t' hu => by
    obtain ⟨hact, -⟩ := Prod.mk.inj hact
    exact ⟨a, t', by rw [h a hact t' hu], rfl, hu⟩

/-- What depends on the types alone is the same later on. -/
theorem asks_types {α : Type} {c : Call} {act : Target → Except Fault α}
    (h : ∀ t t' : Target, t'.types = t.types → t'.connected = t.connected → act t' = act t) :
    g.Asks (liftM (Link.ask c act : Remote α)) :=
  asks_ask fun _ hact t' hu => (h _ t' hu.types hu.connected).trans hact

theorem asks_typeName (id : TypeId) : g.Asks (liftM (Remote.typeName id)) :=
  asks_types fun t t' htypes hconnected => by
    rw [Target.typeName, Target.typeName, Target.checkType, Target.checkType, Target.checkConnected,
      Target.checkConnected, Target.type?, Target.type?, htypes, hconnected]

theorem asks_superclass (id : TypeId) : g.Asks (liftM (Remote.superclass id)) :=
  asks_types fun t t' htypes hconnected => by
    have hnamed : t'.typeNamed? = t.typeNamed? := by
      funext name
      rw [Target.typeNamed?, Target.typeNamed?, htypes]
    rw [Target.superclass, Target.superclass, Target.checkType, Target.checkType,
      Target.checkConnected, Target.checkConnected, Target.type?, Target.type?, htypes, hconnected,
      hnamed]

theorem asks_interfaces (id : TypeId) : g.Asks (liftM (Remote.interfaces id)) :=
  asks_types fun t t' htypes hconnected => by
    have hnamed : t'.typeNamed? = t.typeNamed? := by
      funext name
      rw [Target.typeNamed?, Target.typeNamed?, htypes]
    rw [Target.interfaces, Target.interfaces, Target.checkType, Target.checkType,
      Target.checkConnected, Target.checkConnected, Target.type?, Target.type?, htypes, hconnected,
      hnamed]

theorem asks_methodsByName (id : TypeId) (name : String) :
    g.Asks (liftM (Remote.methodsByName id name)) :=
  asks_types fun _ _ htypes hconnected => Target.methodsByName_congr htypes hconnected id name

/-! ### The heap -/

/-- A cell that is found here is found later on. -/
theorem checkObject_later {t' : Target} (hu : (Target.life g.acts).Underway g.thread t')
    {id : ObjectId} {cell : HeapCell} (h : (Target.life g.acts).checkObject id = .ok cell) :
    t'.checkObject id = .ok cell := by
  simp only [Target.checkObject, Target.checkConnected, hu.connected, bind, Except.bind] at h ⊢
  split at h
  · contradiction
  · split at h
    · rename_i found hfound
      rw [hu.adds.object? (Target.life_issued g.acts) hfound]
      exact h
    · contradiction

/-- What is answered from a cell alone is the same later on. -/
theorem asks_cell {α : Type} {c : Call} {act : Target → Except Fault α} (id : ObjectId)
    (hfails : ∀ t fault, t.checkObject id = .error fault → act t = .error fault)
    (hsame : ∀ t t', t'.checkObject id = t.checkObject id → act t' = act t) :
    g.Asks (liftM (Link.ask c act : Remote α)) :=
  asks_ask fun a hact t' hu => by
    cases hcell : (Target.life g.acts).checkObject id with
    | error fault =>
      rw [hfails _ fault hcell] at hact
      contradiction
    | ok cell => rw [hsame _ t' ((checkObject_later hu hcell).trans hcell.symm), hact]

theorem asks_stringValue (id : ObjectId) : g.Asks (liftM (Remote.stringValue id)) := by
  refine asks_cell id (fun t fault h => ?_) fun t t' h => ?_
  · rw [Target.stringValue, h]
    rfl
  · rw [Target.stringValue, Target.stringValue, h]

theorem asks_arrayLength (id : ObjectId) : g.Asks (liftM (Remote.arrayLength id)) := by
  refine asks_cell id (fun t fault h => ?_) fun t t' h => ?_
  · rw [Target.arrayLength, Target.checkArray, h]
    rfl
  · rw [Target.arrayLength, Target.arrayLength, Target.checkArray, Target.checkArray, h]

theorem asks_element (id : ObjectId) (index : Nat) :
    g.Asks (liftM (Remote.element id index)) := by
  refine asks_cell id (fun t fault h => ?_) fun t t' h => ?_
  · rw [Target.element, Target.checkArray, h]
    rfl
  · rw [Target.element, Target.element, Target.checkArray, Target.checkArray, h]

theorem asks_ofDatum (d : Datum) : g.Asks (Eval.ofDatum d) := by
  cases d with
  | string id => exact (asks_stringValue id).bind fun _ => asks_pure _
  | null | void | primitive | array | object => exact asks_pure _

/-- The type of strings being there, asking for the type of an object changes nothing. -/
theorem objectType_of_cell {t : Target} {string type : TypeId}
    (hs : t.typeNamed? TypeName.string = some string) {id : ObjectId} {cell : HeapCell}
    (hcell : t.checkObject id = .ok cell) (htype : cell.HasType string type) :
    t.objectType id = .ok (type, t) := by
  rw [Target.objectType, hcell]
  cases cell with
  | «instance» | array =>
    obtain rfl := htype
    rfl
  | string text =>
    obtain rfl := htype
    simp only [bind, Except.bind, Target.ensureType, hs]
    rfl

theorem asks_objectType (id : ObjectId) : g.Asks (liftM (Remote.objectType id)) := by
  obtain ⟨string, hs⟩ := (Target.life_formed g.acts).typeNamed?_string
  constructor
  · intro l type l₁ hl hrun
    have hs' : l.target.typeNamed? TypeName.string = some string := by rw [hl.target, hs]
    have hsame := (Eval.objectType_ok hs' hrun).1
    exact hl.of_eq hsame (Link.order_served hrun).2
  · intro l type l₁ hl hrun l' hl'
    have hserves := served_later hl hl' (Link.order_served hrun).1
    have hu := hl'.underway
    have hs' : l'.target.typeNamed? TypeName.string = some string := by
      rw [Target.typeNamed?, hu.types, ← Target.typeNamed?, hs]
    have hasked := Link.order_ok hrun
    rw [hl.target] at hasked
    cases hcell : (Target.life g.acts).checkObject id with
    | error fault =>
      simp only [Target.objectType, hcell] at hasked
      contradiction
    | ok cell =>
      obtain ⟨found, htype⟩ : ∃ found, cell.HasType string found := by
        cases cell <;> exact ⟨_, rfl⟩
      rw [objectType_of_cell hs hcell htype] at hasked
      obtain rfl : found = type := (Prod.mk.inj (Except.ok.inj hasked)).1
      have hasked' := objectType_of_cell hs' (checkObject_later hu hcell) htype
      exact ⟨found, _, Link.order_answered hserves hasked', rfl, hu, hl'.refuses⟩

/-! ### Overloads -/

theorem asks_walkHierarchy (n : Nat) (seen : List TypeId) (queue : List (TypeId × Nat)) :
    g.Asks (Eval.walkHierarchy n seen queue) := by
  induction n generalizing seen queue with
  | zero =>
    cases queue with
    | nil => exact asks_pure _
    | cons => exact asks_throw _
  | succ n ih =>
    cases queue with
    | nil => exact asks_pure _
    | cons entry queue =>
      unfold Eval.walkHierarchy
      split
      · exact ih _ _
      · exact (asks_typeName _).bind fun _ => (asks_superclass _).bind fun _ =>
          (asks_interfaces _).bind fun _ => (ih _ _).bind fun _ => asks_pure _

theorem asks_hierarchy (type : TypeId) : g.Asks (Eval.hierarchy type) := by
  have hwalk := asks_walkHierarchy (g := g) (Eval.hierarchyBound (Target.life g.acts)) []
    [(type, 0)]
  have hbound {t' : Target} (htypes : t'.types = (Target.life g.acts).types) :
      Eval.hierarchyBound t' = Eval.hierarchyBound (Target.life g.acts) := by
    rw [Eval.hierarchyBound, Eval.hierarchyBound, htypes]
  have hrun (l : Link) : Eval.hierarchy type l =
      Eval.walkHierarchy (Eval.hierarchyBound l.target) [] [(type, 0)] l := rfl
  constructor
  · intro l names l₁ hl h
    rw [hrun, hl.target] at h
    exact hwalk.here l names l₁ hl h
  · intro l names l₁ hl h l' hl'
    rw [hrun, hl.target] at h
    rw [hrun, hbound hl'.underway.types]
    exact hwalk.repeats l names l₁ hl h l' hl'

theorem asks_conversionCost (param : String) (v : Value) :
    g.Asks (Eval.conversionCost param v) := by
  cases v with
  | array id | object id =>
    exact (asks_objectType id).bind fun _ => (asks_hierarchy _).bind fun _ => asks_pure _
  | null | void | primitive | text | range | placeholder => exact asks_pure _

theorem asks_totalCost (total : Cost) (args : List (Value × String)) :
    g.Asks (Eval.totalCost total args) := by
  induction args generalizing total with
  | nil => exact asks_pure _
  | cons arg args ih =>
    refine (asks_conversionCost _ _).bind fun cost => ?_
    split
    · exact ih _
    · exact asks_pure _

theorem asks_selectOverload (methods : List Method) (args : List Value) :
    g.Asks (Eval.selectOverload methods args) := by
  have hcheapest (ms : List Method) (best : Option (Cost × Method)) :
      g.Asks (Eval.cheapest args best ms) := by
    induction ms generalizing best with
    | nil => exact asks_pure _
    | cons m ms ih =>
      refine (asks_totalCost _ _).bind fun cost => ?_
      split
      · split <;> exact ih _
      · exact ih _
  exact hcheapest _ _

/-! ### Invocations -/

theorem checkThread_later {t' : Target} (hu : (Target.life g.acts).Underway g.thread t')
    (thread : ThreadId) : t'.checkThread thread = (Target.life g.acts).checkThread thread := by
  rw [Target.checkThread, Target.checkThread, Target.checkConnected, Target.checkConnected,
    Target.thread?, Target.thread?, hu.adds.threads, hu.connected]

theorem asks_ensureInvocable (scope : Scope) : g.Asks scope.ensureInvocable := by
  have hsuspended : g.Asks (liftM (Remote.threadSuspended scope.thread)) :=
    asks_ask fun a hact t' hu => by
      rw [Target.threadSuspended, checkThread_later hu]
      exact hact
  have hguard : g.Asks (do
      unless ← Remote.threadSuspended scope.thread do
        throw (.notSuspended scope.thread)) := by
    refine hsuspended.bind fun suspended => ?_
    cases suspended with
    | false => exact asks_throw _
    | true => exact asks_pure ()
  unfold Scope.ensureInvocable
  cases scope.settings.allowInvocation with
  | false => exact (asks_throw _).bind fun _ => hguard
  | true => exact hguard

theorem checkInvocation_later {t' : Target} (hu : (Target.life g.acts).Underway g.thread t')
    {thread : ThreadId} {receiver : Option Receiver} {method : MethodId} {m : Method × Behaviour}
    (h : (Target.life g.acts).checkInvocation thread receiver method = .ok m) :
    t'.checkInvocation thread receiver method = .ok m := by
  simp only [Target.checkInvocation, checkThread_later hu, bind, Except.bind,
    Target.method?_congr hu.types] at h ⊢
  split at h
  · contradiction
  · rename_i th _
    cases hs : th.suspended with
    | false =>
      simp only [hs] at h
      contradiction
    | true =>
      simp only [hs, ↓reduceIte] at h ⊢
      split at h
      · rename_i id
        cases hcell : (Target.life g.acts).checkObject id with
        | error fault =>
          rw [hcell] at h
          contradiction
        | ok cell =>
          rw [hcell] at h
          rw [checkObject_later hu hcell]
          exact h
      · exact h

/-- What a method answers here it answers later on, save that a new object is another one. -/
theorem invoke_later {t₁ t' : Target} (hu : (Target.life g.acts).Underway g.thread t')
    {receiver : Receiver} {method : MethodId} {args : List Datum} {d : Datum}
    (h : (Target.life g.acts).invoke g.thread receiver method args = (.ok d, t₁)) :
    ∃ d' t₁', t'.invoke g.thread receiver method args = (.ok d', t₁') ∧
      (Target.life g.acts).Underway g.thread t₁' ∧
      ((d' = d ∧ t₁.checkObject = (Target.life g.acts).checkObject) ∨
        ∃ i j, d = .object i ∧ d' = .object j) := by
  have hunderway : (Target.life g.acts).Underway g.thread
      (t'.invoke g.thread receiver method args).2 :=
    hu.step (Target.life_formed g.acts)
      ((Target.adds_admits g.thread True).run trivial t' (some receiver) method args)
      (t'.run_settles g.thread (some receiver) method args)
  obtain ⟨m, behaviour, hcheck⟩ : ∃ m behaviour,
      (Target.life g.acts).checkInvocation g.thread (some receiver) method = .ok (m, behaviour) := by
    rw [Target.invoke, Target.run] at h
    split at h
    · cases (Prod.mk.inj h).1
    · exact ⟨_, _, ‹_›⟩
  rw [Target.invoke, Target.run_eq hcheck] at h
  rw [Target.invoke, Target.run_eq (checkInvocation_later hu hcheck)] at hunderway ⊢
  obtain ⟨d', t₁', hd', hsame⟩ := Target.perform_ok h (t := t'.logging _) hu.types.symm
  rw [hd'] at hunderway
  refine ⟨d', t₁', hd', hunderway, ?_⟩
  obtain rfl | hobjects := hsame
  · obtain ⟨i, rfl⟩ | rfl := Target.perform_object h
    · exact .inr ⟨i, i, rfl, rfl⟩
    · exact .inl ⟨rfl, rfl⟩
  · exact .inr hobjects

/-- A datum that can be read off cells as they are here can be read later on. -/
theorem ofDatum_later {l l₁ l' : Link} (hcells : l.target.checkObject =
      (Target.life g.acts).checkObject) (hrefuses : l.refuses = fun _ => g.refuses) {d : Datum}
    {v : Value} (h : Eval.ofDatum d l = .ok v l₁) (hl' : g.Later l') :
    ∃ l₁', Eval.ofDatum d l' = .ok v l₁' ∧ g.Later l₁' := by
  cases d with
  | string id =>
    obtain ⟨text, l₂, htext, h⟩ := Eval.bind_ok h
    cases h
    have hserved := (Link.call_served htext).1
    obtain ⟨htext, -⟩ := Link.ask_ok htext
    rw [Target.stringValue, hcells, ← Target.stringValue] at htext
    let here : Link := { target := Target.life g.acts, calls := l.calls, refuses := l.refuses }
    have hhere : g.Here here := ⟨rfl, hrefuses⟩
    obtain ⟨_, l₁', hread, rfl, hlater⟩ := (asks_stringValue id).repeats here text _ hhere
      (Link.ask_answered hserved htext) l' hl'
    exact ⟨l₁', Eval.bind_run hread, hlater⟩
  | null | void | primitive | array | object =>
    cases h
    exact ⟨l', rfl, hl'⟩

/-- The same value, or an object each. -/
def Similar (v w : Value) : Prop :=
  v = w ∨ ∃ i j, v = .object i ∧ w = .object j

theorem repeats_invoke (receiver : Receiver) (method : MethodId) (args : List Datum) :
    g.Repeats Similar (do Eval.ofDatum (← Remote.invoke g.thread receiver method args)) := by
  intro l v l₂ hl hrun l' hl'
  obtain ⟨d, l₁, hd, hv⟩ := Eval.bind_ok hrun
  have hact := Link.call_ok hd
  rw [hl.target] at hact
  obtain ⟨d', t₁', hact', hu', hsame⟩ := invoke_later hl'.underway hact
  have hserved := Link.call_served hd
  have hd' : (liftM (Remote.invoke g.thread receiver method args) : Eval Datum) l' =
      .ok d' { l'.counted with target := t₁' } :=
    Link.call_run (served_later hl hl' hserved.1) hact'
  have hlater : g.Later { l'.counted with target := t₁' } := ⟨hu', hl'.refuses⟩
  obtain ⟨rfl, hcells⟩ | ⟨i, j, rfl, rfl⟩ := hsame
  · obtain ⟨l₁', hread, hlater⟩ := ofDatum_later hcells (hserved.2.trans hl.refuses) hv hlater
    exact ⟨v, l₁', (Eval.bind_run hd').trans hread, .inl rfl, hlater⟩
  · cases hv
    exact ⟨.object j, _, Eval.bind_run hd', .inr ⟨i, j, rfl, rfl⟩, hlater⟩

end Ground

end Debugger
