import Debugger.Session
import Debugger.Proofs.Calls
import Debugger.Proofs.Frame

/-!
What evaluation cannot do: what its calls have in common, the evaluation of every expression has,
and a relation that holds across the calls holds across every decision on a hit.
-/

namespace Debugger

namespace Closed

variable {P : ∀ {ε α : Type}, EStateM ε Link α → Prop} {scope : Scope} (h : Closed P scope)

include h

/-! ### Members -/

theorem thisValue : P scope.thisValue := by
  refine h.bind (h.lift h.frameThis) fun this => ?_
  split
  · exact h.pure _
  · exact h.throw _

/-- A name that is no local variable. -/
theorem resolveField (name : String) : P (do
    match ← scope.fieldOfThis name with
    | some datum => Eval.ofDatum datum
    | none =>
      match ← Eval.staticField (← Remote.frameType scope.thread scope.frame) name with
      | some datum => Eval.ofDatum datum
      | none => MonadExcept.throw (EvalError.nameNotFound name)) := by
  have hfield : P (scope.fieldOfThis name) := by
    refine h.bind (h.lift h.frameThis) fun this => ?_
    split
    · exact h.field _ _
    · exact h.pure _
  refine h.bind hfield fun datum => ?_
  split
  · exact h.ofDatum _
  · refine h.bind (h.lift h.frameType) fun type => h.bind (h.staticField _ _) fun datum => ?_
    split
    · exact h.ofDatum _
    · exact h.throw _

/-- The value of a local variable is the one thing that a name may take besides. -/
theorem resolve (name : String)
    (hlocal : P (Remote.variableValue scope.thread scope.frame name)) :
    P (scope.resolve name) := by
  unfold Scope.resolve
  split
  · exact h.thisValue
  · refine h.bind (h.lift h.visibleVariables) fun locals => ?_
    split
    · exact h.bind (h.lift hlocal) fun _ => h.ofDatum _
    · exact h.resolveField name

theorem equal (a b : Value) : P (scope.equal a b) := by
  unfold Scope.equal
  split
  all_goals try exact h.pure _
  split
  · exact h.pure _
  · split
    · refine h.bind (h.invokeOn _ _ _) fun v => ?_
      split <;> exact h.pure _
    · exact h.pure _

theorem onPrimitives (op : Syntax.BinaryOp) (f : Primitive → Primitive → Except OperandFault Value)
    (a b : Value) : P (Scope.onPrimitives op f a b) := by
  unfold Scope.onPrimitives
  split
  · split
    · exact h.pure _
    · exact h.throw _
    · exact h.operandMismatch _ _ _
  · exact h.operandMismatch _ _ _

theorem binaryOnUnboxed (op : Syntax.BinaryOp) (a b : Value) :
    P (scope.binaryOnUnboxed op a b) := by
  have hcompare : P (Scope.compare op a b) := by
    unfold Scope.compare
    split
    · exact h.pure _
    · exact h.onPrimitives _ _ _ _
  cases op <;> dsimp only [Scope.binaryOnUnboxed]
  case add =>
    split
    · exact h.bind (h.textOf _) fun _ => h.bind (h.textOf _) fun _ => h.pure _
    · exact h.bind (h.textOf _) fun _ => h.bind (h.textOf _) fun _ => h.pure _
    · exact h.onPrimitives _ _ _ _
  case eq | ne => exact h.map _ (h.equal a b)
  case lt | le | gt | ge => exact hcompare
  all_goals exact h.onPrimitives _ _ _ _

theorem binary (op : Syntax.BinaryOp) (a b : Value) : P (scope.binary op a b) :=
  h.bind (h.unboxed a) fun _ => h.bind (h.unboxed b) fun _ => h.binaryOnUnboxed _ _ _

theorem unary (op : Syntax.UnaryOp) (v : Value) : P (scope.unary op v) := by
  refine h.bind (h.unboxed v) fun w => ?_
  split
  · split
    · exact h.pure _
    · exact h.throw _
  · exact h.throw _

theorem condition (context : String) (v : Value) : P (scope.condition context v) := by
  refine h.bind (h.unboxed v) fun w => ?_
  split
  · exact h.pure _
  · exact h.bind (h.typeNameOf _) fun _ => h.throw _

theorem contains (collection v : Value) : P (scope.contains collection v) := by
  have hsearch (id : ObjectId) (count index : Nat) :
      P (scope.searchArray id v count index) := by
    induction count generalizing index with
    | zero => exact h.pure _
    | succ count ih =>
      refine h.bind (h.element _ _) fun datum => h.bind (h.ofDatum _) fun item =>
        h.bind (h.equal _ _) fun found => ?_
      split
      · exact h.pure _
      · exact ih _
  unfold Scope.contains
  split
  · exact h.bind (h.unboxed v) fun _ => h.pure _
  · split
    · exact h.pure _
    · exact h.pure _
    · exact h.bind (h.typeNameOf _) fun _ => h.throw _
  · exact h.bind (h.arrayLength _) fun _ => hsearch _ _ _
  · refine h.bind (h.invokeOn _ _ _) fun answer => ?_
    split <;> exact h.pure _
  · exact h.throw _
  · exact h.bind (h.typeNameOf _) fun _ => h.throw _

theorem getProperty (v : Value) (name : String) : P (scope.getProperty v name) := by
  have hgetter (type : TypeId) (names : List String) :
      P (Scope.findGetter type names) := by
    induction names with
    | nil => exact h.pure _
    | cons name names ih =>
      refine h.bind (h.methodsByName _ _) fun ms => ?_
      split
      · exact h.pure _
      · exact ih
  refine h.bind (h.invocationTarget v) fun place => h.bind (hgetter _ _) fun getter => ?_
  split
  · exact h.invokeGetter _ _
  · exact h.throw _

theorem member (v : Value) (name : String) : P (scope.member v name) := by
  have hnone (v : Value) : P (Scope.noMember v name) :=
    h.bind (h.typeNameOf v) fun _ => h.throw _
  unfold Scope.member
  split
  · split
    · exact h.pure _
    · exact h.getProperty _ _
  · split
    · exact h.bind (h.arrayLength _) fun _ => h.pure _
    · exact hnone _
  · split
    · exact h.pure _
    · exact hnone _
  · refine h.bind (h.field _ _) fun datum => ?_
    split
    · exact h.ofDatum _
    · exact h.getProperty _ _
  · exact h.throw _
  · exact hnone _

theorem indexOf (v : Value) : P (Scope.indexOf v) := by
  unfold Scope.indexOf
  split
  · exact h.pure _
  · exact h.throw _

theorem index (target i : Value) : P (scope.index target i) := by
  refine h.bind (h.unboxed i) fun i => ?_
  split
  · exact h.throw _
  · refine h.bind (h.indexOf i) fun n => h.bind (h.arrayLength _) fun length => ?_
    dsimp only
    split
    · exact h.throw _
    · exact h.bind (h.element _ _) fun _ => h.ofDatum _
  · refine h.bind (h.indexOf i) fun n => ?_
    dsimp only
    split
    · exact h.pure _
    · exact h.throw _
  · exact h.invokeOn _ _ _
  · exact h.bind (h.typeNameOf _) fun _ => h.throw _

/-! ### Calls -/

theorem primitiveMethod (p : Primitive) (name : String) (args : List Value) :
    P (scope.primitiveMethod p name args) := by
  unfold Scope.primitiveMethod
  split
  · split
    · exact h.pure _
    · exact h.throw _
  · split
    · exact h.pure _
    · exact h.map _ (h.equal _ _)
    · exact h.throw _

theorem rangeMethod (r : Progression) (name : String) (args : List Value) :
    P (scope.rangeMethod r name args) := by
  unfold Scope.rangeMethod
  split
  · exact h.pure _
  · exact h.map _ (h.contains _ _)
  · exact h.pure _
  · exact h.map _ (h.equal _ _)
  · exact h.throw _

theorem callOn (v : Value) (name : String) (args : List Value) :
    P (scope.callOn v name args) := by
  unfold Scope.callOn
  split
  · exact h.primitiveMethod _ _ _
  · exact h.rangeMethod _ _ _
  · exact h.throw _
  · split
    · exact h.pure _
    · exact h.pure _
    · exact h.pure _
    · exact h.map _ (h.equal _ _)
    · exact h.invokeOn _ _ _
  · exact h.invokeOn _ _ _

theorem callStatic (type : TypeId) (name : String) (args : List Value) :
    P (scope.callStatic type name args) := by
  refine h.bind (h.methodsByName _ _) fun ms => h.bind (h.selectOverload _ _) fun best => ?_
  split
  · exact h.invokeMethod _ _ _
  · exact h.throw _

theorem callUnqualified (name : String) (args : List Value) :
    P (scope.callUnqualified name args) := by
  have hthis : P (scope.methodOfThis name args) := by
    refine h.bind (h.lift h.frameThis) fun this => ?_
    split
    · exact h.pure _
    · refine h.bind (h.lift (h.objectType _)) fun type => h.bind (h.methodsByName _ _) fun ms =>
        h.bind (h.selectOverload _ _) fun best => ?_
      split <;> exact h.pure _
  refine h.bind hthis fun found => ?_
  split
  · exact h.invokeMethod _ _ _
  · exact h.bind (h.lift h.frameType) fun _ => h.callStatic _ _ _

theorem constructObject (type : TypeId) (written : String) (args : List Value) :
    P (scope.constructObject type written args) := by
  refine h.bind (h.methodsByName _ _) fun ms => h.bind (h.selectOverload _ _) fun best => ?_
  split
  · exact h.throw _
  · exact h.guarded fun ha _ => h.bind (h.passArguments (h.invoke ha) _) fun _ =>
      h.bind (h.lift (h.construct ha _ _ _)) fun _ => h.ofDatum _

/-! ### Casts and ranges -/

theorem castTo (v : Value) (type : Syntax.TypeRef) (safe : Bool) :
    P (Scope.castTo v type safe) := by
  unfold Scope.castTo
  split
  · split
    · exact h.pure _
    · exact h.throw _
  · split
    · exact h.pure _
    · refine h.bind (h.isInstance _ _) fun holds => ?_
      split
      · exact h.pure _
      · split
        · exact h.pure _
        · exact h.bind (h.typeNameOf _) fun _ => h.throw _

theorem rangeBounds (first last : Value) : P (Scope.rangeBounds first last) := by
  unfold Scope.rangeBounds
  split
  · exact h.pure _
  · exact h.bind (h.typeNameOf _) fun _ => h.bind (h.typeNameOf _) fun _ => h.throw _

theorem rangeStep (v : Value) : P (Scope.rangeStep v) := by
  unfold Scope.rangeStep
  split
  · exact h.pure _
  · exact h.bind (h.typeNameOf _) fun _ => h.throw _

theorem makeRange (kind : Syntax.RangeKind) (first last step : Int64) (long : Bool) :
    P (Scope.makeRange kind first last step long) := by
  simp only [Scope.makeRange]
  split
  · exact h.throw _
  · exact h.pure _

/-! ### Expressions -/

theorem ownerOf (e : Syntax.Expr) {evaluated : Eval Value} (he : P evaluated) :
    P (Scope.ownerOf e evaluated) := by
  refine h.bind (h.attempt he) fun r => ?_
  split
  · exact h.pure _
  · split
    · exact h.throw _
    · refine h.bind (h.findType _) fun found => ?_
      split
      · exact h.pure _
      · exact h.throw _
  · exact h.throw _

theorem memberOf (owner : Scope.Owner) (name : String) (safe : Bool) :
    P (scope.memberOf owner name safe) := by
  unfold Scope.memberOf
  split
  · refine h.bind (h.staticField _ _) fun datum => ?_
    split
    · exact h.ofDatum _
    · exact h.bind (h.typeName _) fun _ => h.throw _
  · split
    · exact h.pure _
    · exact h.throw _
  · exact h.member _ _

theorem spreadArray (v : Value) : P (Scope.spreadArray v) := by
  unfold Scope.spreadArray
  split
  · exact h.pure _
  · exact h.bind (h.typeNameOf _) fun _ => h.throw _

variable {hole : String → Eval Value}

theorem templateText (hlocals : ∀ name, P (Remote.variableValue scope.thread scope.frame name))
    (hhole : ∀ source, P (hole source)) (parts : List Syntax.TemplatePart) :
    P (scope.templateText hole parts) := by
  induction parts with
  | nil => exact h.pure _
  | cons part parts ih =>
    cases part with
    | text s => exact h.bind ih fun _ => h.pure _
    | name n =>
      exact h.bind (h.resolve n (hlocals n)) fun _ => h.bind (h.textOf _) fun _ =>
        h.bind ih fun _ => h.pure _
    | hole source =>
      exact h.bind (hhole source) fun _ => h.bind (h.textOf _) fun _ => h.bind ih fun _ =>
        h.pure _

mutual

theorem evaluate (hlocals : ∀ name, P (Remote.variableValue scope.thread scope.frame name))
    (hhole : ∀ source, P (hole source)) (e : Syntax.Expr) :
    P (scope.evaluate hole e) := by
  cases e with
  | literal l => exact h.pure _
  | name n => exact h.resolve n (hlocals n)
  | this => exact h.thisValue
  | unary op e => exact h.bind (evaluate hlocals hhole e) fun _ => h.unary _ _
  | binary op l r =>
    have hplain : P (do
        let left ← scope.evaluate hole l
        let right ← scope.evaluate hole r
        scope.binary op left right) :=
      h.bind (evaluate hlocals hhole l) fun _ => h.bind (evaluate hlocals hhole r) fun _ =>
        h.binary _ _ _
    cases op
    case and =>
      refine h.bind (evaluate hlocals hhole l) fun _ => h.bind (h.condition _ _) fun first => ?_
      split
      · exact h.bind (evaluate hlocals hhole r) fun _ => h.bind (h.condition _ _) fun _ => h.pure _
      · exact h.pure _
    case or =>
      refine h.bind (evaluate hlocals hhole l) fun _ => h.bind (h.condition _ _) fun first => ?_
      split
      · exact h.pure _
      · exact h.bind (evaluate hlocals hhole r) fun _ => h.bind (h.condition _ _) fun _ => h.pure _
    all_goals exact hplain
  | member target name safe =>
    exact h.bind (h.ownerOf target (evaluate hlocals hhole target)) fun _ => h.memberOf _ _ _
  | index target i =>
    exact h.bind (evaluate hlocals hhole target) fun _ =>
      h.bind (evaluate hlocals hhole i) fun _ => h.index _ _
  | call receiver name args safe =>
    cases receiver with
    | none => exact h.bind (evaluateArgs hlocals hhole args) fun _ => h.callUnqualified _ _
    | some receiver =>
      refine h.bind (h.ownerOf receiver (evaluate hlocals hhole receiver)) fun owner => ?_
      split
      · split
        · exact h.pure _
        · exact h.throw _
      · exact h.bind (evaluateArgs hlocals hhole args) fun _ => h.callStatic _ _ _
      · exact h.bind (evaluateArgs hlocals hhole args) fun _ => h.callOn _ _ _
  | typeCheck e type negated =>
    exact h.bind (evaluate hlocals hhole e) fun _ => h.bind (h.isInstance _ _) fun _ => h.pure _
  | cast e type safe => exact h.bind (evaluate hlocals hhole e) fun _ => h.castTo _ _ _
  | conditional c yes no =>
    refine h.bind (evaluate hlocals hhole c) fun _ => h.bind (h.condition _ _) fun holds => ?_
    split
    · exact evaluate hlocals hhole yes
    · exact evaluate hlocals hhole no
  | construct type args =>
    refine h.bind (h.findType _) fun found => ?_
    split
    · exact h.throw _
    · exact h.bind (evaluateArgs hlocals hhole args) fun _ => h.constructObject _ _ _
  | elvis l r =>
    refine h.bind (evaluate hlocals hhole l) fun left => ?_
    split
    · exact evaluate hlocals hhole r
    · exact h.pure _
  | template parts => exact h.map _ (h.templateText hlocals hhole parts)
  | range kind a b step =>
    cases step with
    | none =>
      exact h.bind (evaluate hlocals hhole a) fun _ => h.bind (h.unboxed _) fun _ =>
        h.bind (evaluate hlocals hhole b) fun _ => h.bind (h.unboxed _) fun _ =>
        h.bind (h.rangeBounds _ _) fun _ => h.makeRange _ _ _ _ _
    | some s =>
      exact h.bind (evaluate hlocals hhole a) fun _ => h.bind (h.unboxed _) fun _ =>
        h.bind (evaluate hlocals hhole b) fun _ => h.bind (h.unboxed _) fun _ =>
        h.bind (h.rangeBounds _ _) fun _ =>
        h.bind (evaluate hlocals hhole s) fun _ => h.bind (h.unboxed _) fun _ =>
        h.bind (h.rangeStep _) fun _ => h.makeRange _ _ _ _ _
  | contains e collection negated =>
    exact h.bind (evaluate hlocals hhole e) fun _ =>
      h.bind (evaluate hlocals hhole collection) fun _ => h.bind (h.contains _ _) fun _ => h.pure _
  | lambda => exact h.pure _
  | spread => exact h.throw _

theorem evaluateArgs (hlocals : ∀ name, P (Remote.variableValue scope.thread scope.frame name))
    (hhole : ∀ source, P (hole source)) (args : List Syntax.Expr) :
    P (scope.evaluateArgs hole args) := by
  cases args with
  | nil => exact h.pure _
  | cons e rest =>
    have hplain : P (do
        let v ← scope.evaluate hole e
        return v :: (← scope.evaluateArgs hole rest)) :=
      h.bind (evaluate hlocals hhole e) fun _ => h.bind (evaluateArgs hlocals hhole rest) fun _ =>
        h.pure _
    cases e
    case spread e =>
      exact h.bind (evaluate hlocals hhole e) fun _ => h.bind (h.spreadArray _) fun _ =>
        h.bind (evaluateArgs hlocals hhole rest) fun _ => h.pure _
    all_goals exact hplain

end

theorem evaluateHole (hlocals : ∀ name, P (Remote.variableValue scope.thread scope.frame name))
    (depth : Nat) (source : String) : P (scope.evaluateHole depth source) := by
  induction depth generalizing source with
  | zero => exact h.throw _
  | succ depth ih =>
    unfold Scope.evaluateHole
    split
    · exact h.throw _
    · exact h.evaluate hlocals ih _

theorem run (hlocals : ∀ name, P (Remote.variableValue scope.thread scope.frame name))
    (e : Syntax.Expr) : P (scope.run e) :=
  h.evaluate hlocals (fun _ => h.evaluateHole hlocals _ _) e

end Closed

namespace Lasting

variable {R : Link → Link → Prop} {scope : Scope} (h : Lasting R scope)

include h

theorem run (e : Syntax.Expr) : Leads R (scope.run e) :=
  h.toClosed.run (fun _ => h.asks _ _) e

/-- A text that cannot be read asks nothing of the target. -/
theorem evaluateText {α : Type} (text : String) {use : Value → Eval α}
    (huse : ∀ v, Leads R (use v)) : LeadsOver R (scope.evaluateText text use) := by
  unfold Scope.evaluateText
  split
  · exact h.overPure _
  · exact h.overBind (h.bind (h.run _) huse).outcome fun _ => h.overPure _

theorem describe (v : Value) : Leads R (Session.describe scope v) :=
  h.bind (h.display v) fun _ => h.bind (h.typeNameOf v) fun _ => h.pure _

end Lasting

theorem Session.tryEvaluate_leads {R : Link → Link → Prop} {s : Session} {thread : ThreadId}
    {frame : FrameId} (h : Lasting R ⟨thread, frame, s.settings.evaluation⟩) (text : String) :
    LeadsOver R (s.tryEvaluate thread frame text) := by
  refine h.overBind (h.evaluateText text h.describe) fun r => ?_
  split <;> exact h.overPure _

/-! ### Hits -/

section Hits

variable {R : Link → Link → Prop} {settings : EvalSettings} {thread : ThreadId}
  (h : ∀ frame, Lasting R ⟨thread, frame, settings⟩)

/-- The scope on top of a thread is one of the thread. -/
theorem Scope.top_ok {scope : Scope} {l l' : Link}
    (hs : Scope.top settings thread l = .ok scope l') :
    ∃ frame, scope = ⟨thread, frame, settings⟩ := by
  simp only [Scope.top, bind, EStateM.bind] at hs
  split at hs
  · split at hs
    · rename_i frame _
      cases hs
      exact ⟨frame, rfl⟩
    · cases hs
  · cases hs

include h

theorem evaluateOnTop_leads {α : Type} (text : String) {use : Scope → Value → Eval α}
    (huse : ∀ frame v, Leads R (use ⟨thread, frame, settings⟩ v)) :
    LeadsOver R (Gate.evaluateOnTop settings thread text use) := by
  have htop : Leads R (Scope.top settings thread) := by
    refine (h 0).bind (Leads.lift ?_) fun frame => ?_
    · exact (h 0).bind ((h 0).asks _ _) fun _ => (h 0).pure _
    · split
      · exact (h 0).pure _
      · exact (h 0).throw _
  intro l
  have hl := htop.outcome l
  simp only [Gate.evaluateOnTop, OverLink.bind_run]
  cases hr : Scope.top settings thread l with
  | error e l' =>
    simp only [Link.outcome, hr] at hl ⊢
    exact hl
  | ok scope l' =>
    simp only [Link.outcome, hr] at hl ⊢
    obtain ⟨frame, rfl⟩ := Scope.top_ok hr
    exact (h frame).trans hl ((h frame).evaluateText text (huse frame) l')

theorem holds_leads (condition : Option String) :
    LeadsOver R (Gate.holds settings thread condition) := by
  cases condition with
  | none => exact (h 0).overPure _
  | some condition =>
    exact evaluateOnTop_leads h _ fun frame v =>
      (h frame).bind ((h frame).unboxed v) fun _ => (h frame).pure _

theorem renderMessage_leads (message : String) :
    LeadsOver R (Gate.renderMessage settings thread message) := by
  refine (h 0).overBind (evaluateOnTop_leads h _ fun frame v => (h frame).textOf v) fun r => ?_
  split <;> exact (h 0).overPure _

/-- A decision stays within what evaluations do, whatever the breakpoint asks for. -/
theorem decide_leads (r : Registry) (request : RequestId) :
    LeadsOver R (Gate.decide settings r request thread) := by
  have hcounted (b : Breakpoint) : LeadsOver R (Gate.decideCounted settings b thread) := by
    unfold Gate.decideCounted
    split
    · refine (h 0).overBind (holds_leads h b.condition) fun r => ?_
      split
      · exact (h 0).overPure _
      · exact (h 0).overPure _
      · split
        · exact (h 0).overPure _
        · exact (h 0).overBind (renderMessage_leads h _) fun _ => (h 0).overPure _
    · exact (h 0).overPure _
  unfold Gate.decide
  split
  · exact (h 0).overPure _
  · exact (h 0).overBind (hcounted _) fun _ => (h 0).overPure _

end Hits

end Debugger
