import Debugger.Eval.Invoke

/-!
What evaluations have in common. Evaluation reaches the target by a handful of calls; a property
that each of them has, and that composing conversations keeps, every conversation made of them has.
So a relation between links that holds across each call holds across them all. Calls that run code
count only where the settings allow it.
-/

namespace Debugger

/-- The link that a conversation leaves behind, however it ends. -/
def Link.after {ε α : Type} (l : Link) (x : EStateM ε Link α) : Link :=
  match x l with
  | .ok _ l' | .error _ l' => l'

/-- A conversation that succeeds, with the link that it leaves behind. -/
theorem Eval.ok_of_outcome {α : Type} {x : Eval α} {l : Link} {a : α}
    (h : (Link.outcome x l).1.toOption = some a) : x l = .ok a (l.after x) := by
  unfold Link.outcome at h
  unfold Link.after
  cases hx : x l with
  | ok b l' =>
    rw [hx] at h
    rw [Option.some.inj h]
  | error e l' =>
    rw [hx] at h
    contradiction

/-- Whatever the link, a conversation leaves one that stands in the relation to it. -/
def Leads (R : Link → Link → Prop) {ε α : Type} (x : EStateM ε Link α) : Prop :=
  ∀ l, R l (l.after x)

/-- The same of steps whose failures are dealt with. -/
def LeadsOver (R : Link → Link → Prop) {α : Type} (x : OverLink α) : Prop :=
  ∀ l, R l (x l).2

namespace Leads

variable {R : Link → Link → Prop} {α β : Type}

theorem map {ε : Type} {x : EStateM ε Link α} (f : α → β) (hx : Leads R x) :
    Leads R (f <$> x) := by
  intro l
  have hl := hx l
  simp only [Link.after, Functor.map, EStateM.map] at hl ⊢
  cases hr : x l <;> simpa only [hr] using hl

theorem lift {x : Remote α} (hx : Leads R x) : Leads R (liftM x : Eval α) := by
  intro l
  have hl := hx l
  simp only [Link.after, liftM, monadLift, MonadLift.monadLift] at hl ⊢
  cases hr : x l <;> simpa only [hr] using hl

theorem attempt {x : Eval α} (hx : Leads R x) : Leads R x.attempt := by
  intro l
  have hl := hx l
  simp only [Link.after, Eval.attempt] at hl ⊢
  cases hr : x l <;> simpa only [hr] using hl

theorem outcome {ε : Type} {x : EStateM ε Link α} (hx : Leads R x) :
    LeadsOver R (Link.outcome x) := by
  intro l
  have hl := hx l
  simp only [Link.after, Link.outcome] at hl ⊢
  cases hr : x l <;> simpa only [hr] using hl

end Leads

/-! ### What calls look at -/

namespace Target

/-- Whether a question is answered without a look at the threads. -/
def Blind {α : Type} (f : Target → α) : Prop :=
  ∀ t threads, f { t with threads } = f t

variable {t t' : Target}

theorem lineage_congr (h : t'.types = t.types) (id : TypeId) : t'.lineage id = t.lineage id := by
  have hsuper (id : TypeId) : t'.superclass? id = t.superclass? id := by
    have hnamed : t'.typeNamed? = t.typeNamed? := by
      funext name
      rw [typeNamed?, typeNamed?, h]
    rw [superclass?, superclass?, type?, type?, h, hnamed]
  have hfrom (n : Nat) (seen : List TypeId) (id : TypeId) :
      t'.lineageFrom n seen id = t.lineageFrom n seen id := by
    induction n generalizing seen id with
    | zero => rfl
    | succ n ih =>
      unfold lineageFrom
      rw [hsuper]
      split
      · rfl
      · cases t.superclass? id with
        | none => rfl
        | some parent => exact congrArg (id :: ·) (ih _ _)
  rw [lineage, lineage, h, hfrom]

theorem methodsByName_congr (h : t'.types = t.types) (hc : t'.connected = t.connected)
    (id : TypeId) (name : String) : t'.methodsByName id name = t.methodsByName id name := by
  have htype : t'.type? = t.type? := by
    funext id
    rw [type?, type?, h]
  rw [methodsByName, methodsByName, checkType, checkType, checkConnected, checkConnected,
    lineage_congr h, htype, hc]

theorem methodsByName_blind (id : TypeId) (name : String) : Blind (·.methodsByName id name) := by
  intro t threads
  have htypes : ({ t with threads } : Target).types = t.types := rfl
  exact methodsByName_congr htypes rfl id name

theorem field_blind (id : ObjectId) (name : String) : Blind (·.field id name) := by
  intro t threads
  have htypes : ({ t with threads } : Target).types = t.types := rfl
  simp only [field, lineage_congr htypes]
  rfl

end Target

/-! ### Conversations -/

/-- A property of conversations that the calls of an evaluation in the scope have, and that what is
made of such conversations has too. The value of a local variable is not among the calls. -/
structure Closed (P : ∀ {ε α : Type}, EStateM ε Link α → Prop) (scope : Scope) : Prop where
  pure : ∀ {ε α : Type} (a : α), P (Pure.pure a : EStateM ε Link α)
  throw : ∀ {α : Type} (e : EvalError), P (throw e : Eval α)
  bind : ∀ {ε α β : Type} {x : EStateM ε Link α} {f : α → EStateM ε Link β},
    P x → (∀ a, P (f a)) → P (x >>= f)
  lift : ∀ {α : Type} {x : Remote α}, P x → P (liftM x : Eval α)
  attempt : ∀ {α : Type} {x : Eval α}, P x → P x.attempt
  /-- How far a walk goes may depend on the size of the target. -/
  sized : ∀ {α : Type} (size : Target → Nat) {f : Nat → Eval α}, Target.Blind size →
    (∀ n, P (f n)) → P (get >>= fun l => f (size l.target))
  ask : ∀ {α : Type} (c : Call) {act : Target → Except Fault α}, Target.Blind act →
    P (Link.ask c act)
  threadSuspended : P (Remote.threadSuspended scope.thread)
  frameThis : P (Remote.frameThis scope.thread scope.frame)
  visibleVariables : P (Remote.visibleVariables scope.thread scope.frame)
  frameType : P (Remote.frameType scope.thread scope.frame)
  objectType : ∀ id, P (Remote.objectType id)
  wrapString : ∀ text, P (Remote.wrapString text)
  invoke : scope.settings.allowInvocation = true → ∀ receiver method args,
    P (Remote.invoke scope.thread receiver method args)
  construct : scope.settings.allowInvocation = true → ∀ type constructor args,
    P (Remote.construct scope.thread type constructor args)

namespace Closed

variable {P : ∀ {ε α : Type}, EStateM ε Link α → Prop} {scope : Scope} (h : Closed P scope)

include h

/-! ### Steps -/

theorem map {ε α β : Type} (f : α → β) {x : EStateM ε Link α} (hx : P x) : P (f <$> x) := by
  rw [map_eq_pure_bind]
  exact h.bind hx fun _ => h.pure _

theorem asked {α : Type} (c : Call) {act : Target → Except Fault α} (hact : Target.Blind act) :
    P (liftM (Link.ask c act : Remote α) : Eval α) :=
  h.lift (h.ask c hact)

theorem listLoaded (name : Option String) : P (liftM (Remote.listLoaded name) : Eval _) :=
  h.asked _ fun _ _ => rfl

theorem typeName (id : TypeId) : P (liftM (Remote.typeName id) : Eval _) :=
  h.asked _ fun _ _ => rfl

theorem superclass (id : TypeId) : P (liftM (Remote.superclass id) : Eval _) :=
  h.asked _ fun _ _ => rfl

theorem interfaces (id : TypeId) : P (liftM (Remote.interfaces id) : Eval _) :=
  h.asked _ fun _ _ => rfl

theorem methodsByName (id : TypeId) (name : String) :
    P (liftM (Remote.methodsByName id name) : Eval _) :=
  h.asked _ (Target.methodsByName_blind id name)

theorem field (id : ObjectId) (name : String) : P (liftM (Remote.field id name) : Eval _) :=
  h.asked _ (Target.field_blind id name)

theorem staticValue (id : TypeId) (name : String) :
    P (liftM (Remote.staticField id name) : Eval _) :=
  h.asked _ fun _ _ => rfl

theorem arrayLength (id : ObjectId) : P (liftM (Remote.arrayLength id) : Eval _) :=
  h.asked _ fun _ _ => rfl

theorem element (id : ObjectId) (index : Nat) : P (liftM (Remote.element id index) : Eval _) :=
  h.asked _ fun _ _ => rfl

theorem stringValue (id : ObjectId) : P (liftM (Remote.stringValue id) : Eval _) :=
  h.asked _ fun _ _ => rfl

theorem attempt? {α : Type} {x : Eval α} (hx : P x) : P x.attempt? := by
  refine h.bind (h.attempt hx) fun r => ?_
  split
  · exact h.pure _
  · exact h.throw _
  · exact h.pure _

/-- What comes behind the guard counts only where code may be run. -/
theorem guarded {α : Type} {f : Unit → Eval α}
    (hf : scope.settings.allowInvocation = true → ∀ u, P (f u)) :
    P (scope.ensureInvocable >>= f) := by
  unfold Scope.ensureInvocable
  by_cases ha : scope.settings.allowInvocation = true
  · refine h.bind ?_ (hf ha)
    simp only [ha, ↓reduceIte]
    refine h.bind (h.lift h.threadSuspended) fun suspended => ?_
    split
    · exact h.pure _
    · exact h.throw _
  · simp only [ha]
    exact h.throw _

/-! ### Types -/

theorem ofDatum (d : Datum) : P (Eval.ofDatum d) := by
  cases d with
  | string id => exact h.bind (h.stringValue id) fun _ => h.pure _
  | null | void | primitive | array | object => exact h.pure _

theorem runtimeTypeName (id : ObjectId) : P (Eval.runtimeTypeName id) := by
  have hx : P (Eval.runtimeType id) := h.bind (h.objectType id) fun _ =>
    h.ask _ fun _ _ => rfl
  exact h.bind (h.attempt? (h.lift hx)) fun _ => h.pure _

theorem typeNameOf (v : Value) : P (Eval.typeNameOf v) := by
  cases v with
  | array id | object id => exact h.runtimeTypeName id
  | null | void | primitive | text | range | placeholder => exact h.pure _

theorem operandMismatch {α : Type} (op : Syntax.BinaryOp) (a b : Value) :
    P (Eval.operandMismatch op a b : Eval α) :=
  h.bind (h.typeNameOf a) fun _ => h.bind (h.typeNameOf b) fun _ => h.throw _

theorem walkHierarchy (n : Nat) (seen : List TypeId) (queue : List (TypeId × Nat)) :
    P (Eval.walkHierarchy n seen queue) := by
  induction n generalizing seen queue with
  | zero =>
    cases queue with
    | nil => exact h.pure _
    | cons => exact h.throw _
  | succ n ih =>
    cases queue with
    | nil => exact h.pure _
    | cons entry queue =>
      unfold Eval.walkHierarchy
      split
      · exact ih _ _
      · exact h.bind (h.typeName _) fun _ => h.bind (h.superclass _) fun _ =>
          h.bind (h.interfaces _) fun _ => h.bind (ih _ _) fun _ => h.pure _

theorem hierarchy (type : TypeId) : P (Eval.hierarchy type) :=
  h.sized Eval.hierarchyBound (f := (Eval.walkHierarchy · [] [(type, 0)])) (fun _ _ => rfl)
    fun _ => h.walkHierarchy _ _ _

theorem firstLoaded (names : List String) : P (Eval.firstLoaded names) := by
  induction names with
  | nil => exact h.pure _
  | cons name names ih =>
    refine h.bind (h.listLoaded _) fun types => ?_
    split
    · exact h.pure _
    · exact ih

theorem withSimpleName (name : String) (ids : List TypeId) :
    P (Eval.withSimpleName name ids) := by
  induction ids with
  | nil => exact h.pure _
  | cons id ids ih =>
    refine h.bind (h.attempt? (h.typeName _)) fun full => h.bind ih fun rest => ?_
    split
    · split <;> exact h.pure _
    · exact h.pure _

theorem findType (written : String) : P (Eval.findType written) := by
  unfold Eval.findType
  dsimp only
  split
  · exact h.pure _
  · refine h.bind (h.firstLoaded _) fun found => ?_
    split
    · exact h.pure _
    · split
      · exact h.pure _
      · refine h.bind (h.listLoaded _) fun ids => h.bind (h.withSimpleName _ ids) fun found => ?_
        split
        · exact h.pure _
        · exact h.pure _
        · exact h.throw _

theorem isInstance (type : Syntax.TypeRef) (v : Value) : P (Eval.isInstance type v) := by
  cases v with
  | array id | object id =>
    exact h.bind (h.lift (h.objectType id)) fun _ => h.bind (h.hierarchy _) fun _ => h.pure _
  | null | void | primitive | text | range | placeholder => exact h.pure _

theorem staticField (type : TypeId) (name : String) : P (Eval.staticField type name) := by
  have hfrom (n : Nat) (type : TypeId) : P (Eval.staticFieldFrom name n type) := by
    induction n generalizing type with
    | zero => exact h.throw _
    | succ n ih =>
      refine h.bind (h.staticValue _ _) fun value => ?_
      split
      · exact h.pure _
      · refine h.bind (h.superclass _) fun parent => ?_
        split
        · exact ih _
        · exact h.pure _
  exact h.sized (·.types.length + 1) (f := (Eval.staticFieldFrom name · type)) (fun _ _ => rfl)
    fun _ => hfrom _ _

/-! ### Overloads -/

theorem conversionCost (param : String) (v : Value) : P (Eval.conversionCost param v) := by
  cases v with
  | array id | object id =>
    exact h.bind (h.lift (h.objectType id)) fun _ => h.bind (h.hierarchy _) fun _ => h.pure _
  | null | void | primitive | text | range | placeholder => exact h.pure _

theorem totalCost (total : Cost) (args : List (Value × String)) :
    P (Eval.totalCost total args) := by
  induction args generalizing total with
  | nil => exact h.pure _
  | cons arg args ih =>
    refine h.bind (h.conversionCost _ _) fun cost => ?_
    split
    · exact ih _
    · exact h.pure _

theorem selectOverload (methods : List Method) (args : List Value) :
    P (Eval.selectOverload methods args) := by
  have hcheapest (ms : List Method) (best : Option (Cost × Method)) :
      P (Eval.cheapest args best ms) := by
    induction ms generalizing best with
    | nil => exact h.pure _
    | cons m ms ih =>
      refine h.bind (h.totalCost _ _) fun cost => ?_
      split
      · split <;> exact ih _
      · exact ih _
  exact hcheapest _ _

/-! ### Running methods -/

theorem invokeGetter (receiver : Receiver) (m : Method) :
    P (scope.invokeGetter receiver m) :=
  h.guarded fun ha _ => h.bind (h.lift (h.invoke ha _ _ _)) fun _ => h.ofDatum _

theorem unbox? (v : Value) : P (scope.unbox? v) := by
  have haccessor (id : ObjectId) (type : TypeId) (kind : PrimitiveKind) :
      P (scope.unboxByAccessor id type kind) := by
    refine h.bind (h.methodsByName _ _) fun ms => ?_
    split
    · exact h.invokeGetter _ _
    · exact h.throw _
  cases v with
  | object id =>
    refine h.bind (h.lift (h.objectType id)) fun type => h.bind (h.typeName _) fun name => ?_
    split
    · exact h.pure _
    · refine h.bind (h.field _ _) fun datum => ?_
      split
      · refine h.bind (h.ofDatum _) fun inner => ?_
        split
        · exact h.pure _
        · exact h.map _ (haccessor _ _ _)
      · exact h.map _ (haccessor _ _ _)
  | null | void | primitive | text | array | range | placeholder => exact h.pure _

theorem unboxed (v : Value) : P (scope.unboxed v) :=
  h.bind (h.unbox? v) fun _ => h.pure _

theorem remoteString (text : String) (handle : Option ObjectId) :
    P (Scope.remoteString text handle) := by
  cases handle with
  | none => exact (h.lift (h.wrapString text))
  | some id => exact h.pure _

/-- Boxing runs code without a guard of its own, so that running code has to keep the relation
whatever the settings. -/
theorem passArgument (hinvoke : ∀ receiver method args,
      P (Remote.invoke scope.thread receiver method args)) (param : String) (n : Nat)
    (v : Value) : P (scope.passArgument param n v) := by
  have hboxed (p : Primitive) : P (scope.boxed p) := by
    refine h.bind (h.listLoaded _) fun types => ?_
    split
    · exact h.throw _
    · refine h.bind (h.methodsByName _ _) fun ms => ?_
      split
      · exact h.throw _
      · exact (h.lift (hinvoke _ _ _))
  have hprimitive (p : Primitive) : P (scope.passPrimitive p param) := by
    unfold Scope.passPrimitive
    split
    · exact hboxed p
    · split
      · exact h.pure _
      · exact h.throw _
  induction n generalizing v with
  | zero =>
    cases v <;> unfold Scope.passArgument
    case text s handle => exact h.bind (h.remoteString _ _) fun _ => h.pure _
    case primitive p => exact hprimitive p
    case null | array => exact h.pure _
    case object id =>
      split
      · exact h.pure _
      · exact h.throw _
    case void | range | placeholder => exact h.throw _
  | succ n ih =>
    cases v <;> unfold Scope.passArgument
    case text s handle => exact h.bind (h.remoteString _ _) fun _ => h.pure _
    case primitive p => exact hprimitive p
    case null | array => exact h.pure _
    case object id =>
      split
      · exact h.pure _
      · refine h.bind (h.unbox? _) fun inner => ?_
        split
        · exact ih _
        · exact h.bind (h.typeNameOf _) fun _ => h.throw _
    case void | range | placeholder => exact h.throw _

theorem passArguments (hinvoke : ∀ receiver method args,
      P (Remote.invoke scope.thread receiver method args))
    (args : List (Value × String)) : P (scope.passArguments args) := by
  induction args with
  | nil => exact h.pure _
  | cons arg args ih =>
    have hpass (n : Nat) : P (do
        let datum ← scope.passArgument arg.2 n arg.1
        return datum :: (← scope.passArguments args)) :=
      h.bind (h.passArgument hinvoke _ _ _) fun _ => h.bind ih fun _ => h.pure _
    exact h.sized Target.chainBound (fun _ _ => rfl) hpass

theorem invokeMethod (receiver : Receiver) (m : Method) (args : List Value) :
    P (scope.invoke receiver m args) :=
  h.guarded fun ha _ => h.bind (h.passArguments (h.invoke ha) _) fun _ =>
    h.bind (h.lift (h.invoke ha _ _ _)) fun _ => h.ofDatum _

theorem invocationTarget (v : Value) : P (Scope.invocationTarget v) := by
  cases v with
  | text s handle =>
    exact h.bind (h.remoteString _ _) fun _ => h.bind (h.lift (h.objectType _)) fun _ => h.pure _
  | array id | object id => exact h.bind (h.lift (h.objectType id)) fun _ => h.pure _
  | null | void | primitive | range | placeholder =>
    exact h.bind (h.typeNameOf _) fun _ => h.throw _

theorem invokeOn (v : Value) (name : String) (args : List Value) :
    P (scope.invokeOn v name args) := by
  refine h.bind (h.invocationTarget v) fun place =>
    h.bind (h.methodsByName _ _) fun ms =>
    h.bind (h.selectOverload _ _) fun best => ?_
  split
  · exact h.throw _
  · exact h.invokeMethod _ _ _

theorem valueText (v : Value) : P (Scope.objectText.valueText v) := by
  cases v with
  | array id =>
    refine h.bind (h.runtimeTypeName id) fun type => 
      h.bind (h.attempt? (h.arrayLength _)) fun n => ?_
    split <;> exact h.pure _
  | null | void | primitive | text | object | range | placeholder => exact h.pure _

theorem objectText (n : Nat) (id : ObjectId) : P (scope.objectText n id) := by
  induction n generalizing id with
  | zero => exact h.throw _
  | succ n ih =>
    refine h.bind (h.attempt? (h.unbox? _)) fun inner => ?_
    split
    · exact ih _
    · exact h.valueText _
    · split
      · refine h.bind (h.attempt? (h.invokeOn _ _ _)) fun text => ?_
        split
        · exact h.pure _
        · exact h.bind (h.runtimeTypeName id) fun _ => h.pure _
      · exact h.bind (h.runtimeTypeName id) fun _ => h.pure _

theorem textOf (v : Value) : P (scope.textOf v) := by
  unfold Scope.textOf
  split
  · exact h.sized Target.chainBound (f := (scope.objectText · _)) (fun _ _ => rfl)
      fun _ => h.objectText _ _
  · exact h.valueText _

theorem display (v : Value) : P (scope.display v) := by
  unfold Scope.display
  split
  · exact h.pure _
  · exact h.textOf _

end Closed

/-- A relation that holds across every call an evaluation in the scope can make. -/
structure Lasting (R : Link → Link → Prop) (scope : Scope) : Prop extends
    Closed (Leads R) scope where
  refl : ∀ l, R l l
  trans : ∀ {a b c}, R a b → R b c → R a c
  asks : ∀ {α : Type} (c : Call) (act : Target → Except Fault α), Leads R (Link.ask c act)

namespace Lasting

variable {R : Link → Link → Prop} {scope : Scope}

/-- What composes keeps a relation that links stand in to themselves and that chains. -/
theorem of_calls (hrefl : ∀ l, R l l) (htrans : ∀ {a b c}, R a b → R b c → R a c)
    (hasks : ∀ {α : Type} (c : Call) (act : Target → Except Fault α), Leads R (Link.ask c act))
    (hobject : ∀ id, Leads R (Remote.objectType id))
    (hwrap : ∀ text, Leads R (Remote.wrapString text))
    (hinvoke : scope.settings.allowInvocation = true → ∀ receiver method args,
      Leads R (Remote.invoke scope.thread receiver method args))
    (hconstruct : scope.settings.allowInvocation = true → ∀ type constructor args,
      Leads R (Remote.construct scope.thread type constructor args)) : Lasting R scope where
  refl := hrefl
  trans := htrans
  asks := hasks
  pure _ l := hrefl l
  throw _ l := hrefl l
  bind {_ _ _ x f} hx hf := by
    intro l
    have hl := hx l
    simp only [Link.after, Bind.bind, EStateM.bind] at hl ⊢
    cases hr : x l with
    | ok a l' =>
      rw [hr] at hl
      exact htrans hl (hf a l')
    | error e l' =>
      rw [hr] at hl
      exact hl
  lift := Leads.lift
  attempt := Leads.attempt
  sized _ _ _ hf l := hf _ l
  ask c _ _ := hasks c _
  threadSuspended := hasks _ _
  frameThis := hasks _ _
  visibleVariables := hasks _ _
  frameType := hasks _ _
  objectType := hobject
  wrapString := hwrap
  invoke := hinvoke
  construct := hconstruct

variable (h : Lasting R scope)

include h

theorem overPure {α : Type} (a : α) : LeadsOver R (Pure.pure a : OverLink α) :=
  fun l => h.refl l

theorem overBind {α β : Type} {x : OverLink α} {f : α → OverLink β} (hx : LeadsOver R x)
    (hf : ∀ a, LeadsOver R (f a)) : LeadsOver R (x >>= f) :=
  fun l => h.trans (hx l) (hf (x l).1 (x l).2)

end Lasting

/-! ### Steps of the target -/

/-- A relation between targets that holds across each step of a call that an evaluation on the
thread can make: a missing type is defined, a cell is put on the heap and, where code may be run, an
invocation is logged. -/
structure Target.Admits (S : Target → Target → Prop) (thread : ThreadId) (mayRun : Prop) :
    Prop where
  refl : ∀ t, S t t
  trans : ∀ {a b c}, S a b → S b c → S a c
  ensureType : ∀ (t : Target) name, S t (t.ensureType name).2
  allocate : ∀ (t : Target) cell, S t (t.allocate cell).2
  log : mayRun → ∀ (t : Target) (record : Invocation), record.thread = thread →
    S t { t with invocations := t.invocations ++ [record] }

namespace Target.Admits

variable {S : Target → Target → Prop} {thread : ThreadId} {mayRun : Prop}
  (h : Admits S thread mayRun)

include h

theorem objectType {t t' : Target} {id : ObjectId} {type : TypeId}
    (hok : t.objectType id = .ok (type, t')) : S t t' := by
  simp only [Target.objectType, bind, Except.bind] at hok
  split at hok
  · contradiction
  · split at hok
    · cases hok
      exact h.refl t
    · cases hok
      exact h.refl t
    · have hensured := Except.ok.inj hok
      have hs := h.ensureType t TypeName.string
      rwa [hensured] at hs

theorem wrapString {t t' : Target} {text : String} {id : ObjectId}
    (hok : t.wrapString text = .ok (id, t')) : S t t' := by
  simp only [Target.wrapString, bind, Except.bind] at hok
  split at hok
  · contradiction
  · have hnew := Except.ok.inj hok
    have hs := h.allocate t (.string text)
    rwa [show t.allocate (.string text) = (id, t') from hnew] at hs

theorem run (hmay : mayRun) (t : Target) (receiver : Option Receiver) (method : MethodId)
    (args : List Datum) : S t (t.run thread receiver method args).2 := by
  have hperform (t : Target) (behaviour : Behaviour) : S t (t.perform args behaviour).2 := by
    cases behaviour with
    | returns | throws | computes => exact h.refl t
    | boxes name =>
      simp only [perform]
      split
      · exact h.refl t
      · exact h.allocate t _
  unfold Target.run
  split
  · exact h.refl t
  · exact h.trans (h.log hmay t _ rfl) (hperform _ _)

theorem construct (hmay : mayRun) (t : Target) (type : TypeId) (constructor : MethodId)
    (args : List Datum) : S t (t.construct thread type constructor args).2 := by
  have hrun := h.run hmay t none constructor args
  unfold Target.construct
  split
  · rename_i hvoid
    rw [hvoid] at hrun
    exact h.trans hrun (h.allocate _ _)
  · exact hrun

end Target.Admits

section Lift

variable {S : Target → Target → Prop} {R : Link → Link → Prop}
  (hR : ∀ (l : Link) calls t, S l.target t → R l { l with calls, target := t })
  (hrefl : ∀ t, S t t)

include hR hrefl

/-- A refused call leaves the target alone, any other one does what it does to it. -/
theorem Link.call_leads {α : Type} (c : Call) {act : Target → Except Fault α × Target}
    (hact : ∀ t, S t (act t).2) : Leads R (Link.call c act) := by
  intro l
  have ht := hact l.target
  unfold after call
  dsimp only
  cases l.refuses l.calls c with
  | some fault => exact hR l _ _ (hrefl _)
  | none =>
    cases hrun : act l.target with
    | mk result t =>
      rw [hrun] at ht
      cases result <;> exact hR l _ _ ht

theorem Link.order_leads {α : Type} (c : Call) {act : Target → Except Fault (α × Target)}
    (hact : ∀ t a t', act t = .ok (a, t') → S t t') : Leads R (Link.order c act) := by
  refine Link.call_leads hR hrefl c fun t => ?_
  split
  · rename_i a t' hok
    exact hact t a t' hok
  · exact hrefl t

theorem Link.orderOnly_leads (c : Call) {act : Target → Except Fault Target}
    (hact : ∀ t t', act t = .ok t' → S t t') : Leads R (Link.orderOnly c act) := by
  refine Link.order_leads hR hrefl c fun t a t' hok => ?_
  cases ht : act t with
  | error fault =>
    rw [ht] at hok
    contradiction
  | ok t'' =>
    rw [ht] at hok
    cases hok
    exact hact t _ ht

omit hrefl in
/-- What the target's steps keep, evaluations keep. -/
theorem Target.Admits.lasting {scope : Scope}
    (h : Admits S scope.thread (scope.settings.allowInvocation = true))
    (hreflR : ∀ l, R l l) (htransR : ∀ {a b c}, R a b → R b c → R a c) : Lasting R scope :=
  .of_calls hreflR htransR (fun c _ => Link.call_leads hR h.refl c fun t => h.refl t)
    (fun _ => Link.order_leads hR h.refl _ fun _ _ _ => h.objectType)
    (fun _ => Link.order_leads hR h.refl _ fun _ _ _ => h.wrapString)
    (fun hmay receiver method args =>
      Link.call_leads hR h.refl _ fun t => h.run hmay t (some receiver) method args)
    (fun hmay type constructor args =>
      Link.call_leads hR h.refl _ fun t => h.construct hmay t type constructor args)

end Lift

end Debugger
