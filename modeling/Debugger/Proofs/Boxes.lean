import Debugger.Proofs.Locals
import Debugger.Proofs.Lockstep
import Debugger.Proofs.RoundTrip

/-!
Boxes are transparent to operators: an expression that only computes cannot tell a local variable
that holds a primitive from one that holds a box of it.
-/

namespace Debugger

open Syntax

/-- Expressions made of literals, names, operators, conditions, templates and ranges. What a hole
of a template reads as is such an expression too, and membership is in a range written as one. -/
inductive Syntax.Expr.Computes : Expr → Prop where
  | literal (value : Literal) : Computes (.literal value)
  | name (name : String) : Computes (.name name)
  | unary (op : UnaryOp) {e : Expr} : Computes e → Computes (.unary op e)
  | binary (op : BinaryOp) {l r : Expr} : Computes l → Computes r → Computes (.binary op l r)
  | conditional {c yes no : Expr} : Computes c → Computes yes → Computes no →
    Computes (.conditional c yes no)
  | elvis {l r : Expr} : Computes l → Computes r → Computes (.elvis l r)
  | template {parts : List TemplatePart} : (∀ source, .hole source ∈ parts →
    ∀ e, parse source = .ok e → Computes e) → Computes (.template parts)
  | range (kind : RangeKind) {first last : Expr} {step : Option Expr} : Computes first →
    Computes last → (∀ s, step = some s → Computes s) → Computes (.range kind first last step)
  | contains {e first last : Expr} {step : Option Expr} (kind : RangeKind) (negated : Bool) :
    Computes e → Computes first → Computes last → (∀ s, step = some s → Computes s) →
    Computes (.contains e (.range kind first last step) negated)

/-- A local variable, a primitive, and an object of the primitive's box type that holds it. -/
structure BoxedLocal where
  acts : List Target.Act
  thread : ThreadId
  frame : FrameId
  name : String
  held : Primitive
  box : ObjectId
  boxes : ∃ type fields e, (Target.life acts).object? box = some (.instance type fields) ∧
    fields.lookup "value" = some (.primitive held) ∧
    (Target.life acts).type? type = some e ∧ e.name = held.kind.box

namespace BoxedLocal

variable (b : BoxedLocal)

/-- The target in which the variable holds the primitive itself. -/
def bare (t : Target) : Target :=
  t.setLocal b.thread b.frame b.name (.primitive b.held)

/-- The target in which the variable holds the box. -/
def boxed (t : Target) : Target :=
  t.setLocal b.thread b.frame b.name (.object b.box)

/-- Evaluation on the frame of the variable. -/
def scope (settings : EvalSettings) : Scope :=
  ⟨b.thread, b.frame, settings⟩

/-- The targets of the two links differ in the variable only, and calls to them are not refused. -/
structure Twins (l l' : Link) : Prop where
  common : ∃ t, (Target.life b.acts).Underway b.thread t ∧ l.target = b.bare t ∧
    l'.target = b.boxed t
  serves : ∀ n c, l.refuses n c = none
  serves' : ∀ n c, l'.refuses n c = none

/-- Values that are the same, or the primitive and the box. -/
def Related (v w : Value) : Prop :=
  v = w ∨ ((Target.life b.acts).connected = true ∧ v = .primitive b.held ∧ w = .object b.box)

variable {b}

/-! ### Calls -/

theorem call_lockstep {α β : Type} {Q : α → β → Prop} (c : Call)
    {act : Target → Except Fault α × Target} {act' : Target → Except Fault β × Target}
    (h : ∀ t, (Target.life b.acts).Underway b.thread t →
      ∃ t', (Target.life b.acts).Underway b.thread t' ∧ (act (b.bare t)).2 = b.bare t' ∧
        (act' (b.boxed t)).2 = b.boxed t' ∧ Alike Q (act (b.bare t)).1 (act' (b.boxed t)).1) :
    Lockstep b.Twins Q (Link.call c act) (Link.call c act') := by
  intro l l' hl
  obtain ⟨t, hu, ht, ht'⟩ := hl.common
  obtain ⟨t', hu', hbare, hboxed, halike⟩ := h t hu
  simp only [Link.call, hl.serves, hl.serves', ht, ht']
  cases hact : act (b.bare t) with
  | mk r s =>
    cases hact' : act' (b.boxed t) with
    | mk r' s' =>
      rw [hact] at hbare halike
      rw [hact'] at hboxed halike
      have htwins (n n' : Nat) : b.Twins { l with calls := n, target := s }
          { l' with calls := n', target := s' } :=
        ⟨⟨t', hu', hbare, hboxed⟩, hl.serves, hl.serves'⟩
      cases r <;> cases r' <;> first | exact ⟨halike, htwins _ _⟩ | exact halike

theorem ask_lockstep {α β : Type} {Q : α → β → Prop} (c : Call) {act : Target → Except Fault α}
    {act' : Target → Except Fault β} (h : ∀ t, (Target.life b.acts).Underway b.thread t →
      Alike Q (act (b.bare t)) (act' (b.boxed t))) :
    Lockstep b.Twins Q (Link.ask c act) (Link.ask c act') :=
  call_lockstep c fun t hu => ⟨t, hu, rfl, rfl, h t hu⟩

theorem order_parallel {α : Type} (c : Call) {act : Target → Except Fault (α × Target)}
    (h : ∀ t, (∀ name value, act (t.setLocal b.thread b.frame name value) =
      (fun r => (r.1, r.2.setLocal b.thread b.frame name value)) <$> act t) ∧
      ∀ a t', act t = .ok (a, t') → t.Adds b.thread t' ∧ t.Settles t') :
    Parallel b.Twins (Link.order c act) := by
  refine call_lockstep c fun t hu => ?_
  obtain ⟨hset, hok⟩ := h t
  simp only [bare, boxed, hset]
  cases hact : act t with
  | error fault => exact ⟨t, hu, rfl, rfl, .refl _⟩
  | ok r =>
    obtain ⟨hadds, hsettles⟩ := hok r.1 r.2 hact
    exact ⟨r.2, hu.step (Target.life_formed _) hadds hsettles, rfl, rfl, .refl _⟩

theorem run_parallel {α : Type} (c : Call) {act : Target → Except Fault α × Target}
    (h : ∀ t, (∀ name value, act (t.setLocal b.thread b.frame name value) =
      ((act t).1, (act t).2.setLocal b.thread b.frame name value)) ∧
      t.Adds b.thread (act t).2 ∧ t.Settles (act t).2) : Parallel b.Twins (Link.call c act) := by
  refine call_lockstep c fun t hu => ?_
  obtain ⟨hset, hadds, hsettles⟩ := h t
  simp only [bare, boxed, hset]
  exact ⟨_, hu.step (Target.life_formed _) hadds hsettles, rfl, rfl, .refl _⟩

/-- Whatever does not read a local variable runs the same on both targets. -/
theorem closed (b : BoxedLocal) (settings : EvalSettings) :
    Closed (Parallel b.Twins) (b.scope settings) where
  pure _ := .pure rfl
  throw := .throw
  bind := .after
  lift := .lift
  attempt := .attempt
  sized size f hsize hf l l' hl := by
    obtain ⟨t, -, ht, ht'⟩ := hl.common
    have hsame : size l'.target = size l.target := by
      rw [ht, ht', bare, boxed, hsize.setLocal, hsize.setLocal]
    have hrun (k : Link) : (get >>= fun l => f (size l.target)) k = f (size k.target) k := rfl
    rw [hrun, hrun, hsame]
    exact hf _ l l' hl
  ask c act hact := ask_lockstep c fun t _ => by
    rw [bare, boxed, hact.setLocal, hact.setLocal]
    exact .refl _
  threadSuspended := ask_lockstep _ fun t _ => by
    simp only [bare, boxed, scope, Target.threadSuspended_setLocal]
    exact .refl _
  frameThis := ask_lockstep _ fun t _ => by
    simp only [bare, boxed, scope, Target.frameThis_setLocal]
    exact .refl _
  visibleVariables := ask_lockstep _ fun t _ => by
    simp only [bare, boxed, scope, Target.visibleVariables_setLocal]
    exact .refl _
  frameType := ask_lockstep _ fun t _ => by
    simp only [bare, boxed, scope, Target.frameType_setLocal]
    exact .refl _
  objectType id := order_parallel _ fun t => ⟨fun _ _ => t.objectType_setLocal _ _ _ _ id,
    fun _ _ hok => ⟨(Target.adds_admits b.thread True).objectType hok,
      Target.objectType_settles hok⟩⟩
  wrapString text := order_parallel _ fun t => ⟨fun _ _ => t.wrapString_setLocal _ _ _ _ text,
    fun _ _ hok => ⟨(Target.adds_admits b.thread True).wrapString hok,
      Target.wrapString_settles hok⟩⟩
  invoke _ receiver method args := run_parallel _ fun t =>
    ⟨fun _ _ => t.run_setLocal _ _ _ _ (some receiver) method args,
      (Target.adds_admits b.thread True).run trivial t (some receiver) method args,
      t.run_settles b.thread (some receiver) method args⟩
  construct _ type constructor args := run_parallel _ fun t =>
    ⟨fun _ _ => t.construct_setLocal _ _ _ _ type constructor args,
      (Target.adds_admits b.thread True).construct trivial t type constructor args,
      t.construct_settles b.thread type constructor args⟩

/-! ### The box -/

section Values

variable {settings : EvalSettings}

/-- Unboxing the box asks a few questions and yields the primitive. -/
theorem unbox?_box (settings : EvalSettings) {l l' : Link} (hl : b.Twins l l')
    (hc : (Target.life b.acts).connected = true) :
    ∃ n, (b.scope settings).unbox? (.object b.box) l' =
      .ok (some (.primitive b.held)) { l' with calls := n } := by
  obtain ⟨type, fields, e, hcell, hvalue, htype, hname⟩ := b.boxes
  obtain ⟨t, hu, -, ht'⟩ := hl.common
  have hcell' : l'.target.object? b.box = some (.instance type fields) := by
    rw [ht']
    exact hu.adds.object? (Target.life_issued b.acts) hcell
  have htype' : l'.target.type? type = some e := by
    rw [ht']
    exact hu.adds.type? htype
  have hc' : l'.target.connected = true := by
    rw [ht']
    exact hu.connected.trans hc
  have hasked : l'.target.objectType b.box = .ok (type, l'.target) := by
    rw [Target.objectType, Target.checkObject_of_object hc' hcell']
    rfl
  have hkind : PrimitiveKind.ofBox? e.name = some b.held.kind := by
    rw [hname, PrimitiveKind.ofBox?_box]
  have htypeOf : (liftM (Remote.objectType b.box) : Eval TypeId) l' = .ok type l'.counted :=
    Link.order_run hl.serves' hasked
  have hnameOf : (liftM (Remote.typeName type) : Eval String) l'.counted =
      .ok e.name l'.counted.counted :=
    Link.ask_run hl.serves' (Target.typeName_of_type hc' htype')
  have hfield : (liftM (Remote.field b.box "value") : Eval (Option Datum)) l'.counted.counted =
      .ok (some (.primitive b.held)) l'.counted.counted.counted :=
    Link.ask_run hl.serves' (Target.field_of_value hc' hcell' hvalue)
  refine ⟨l'.calls + 1 + 1 + 1, ?_⟩
  rw [Scope.unbox?, Eval.bind_run htypeOf, Eval.bind_run hnameOf]
  simp only [hkind]
  rw [Eval.bind_run hfield]
  dsimp only
  rw [Eval.bind_run (show Eval.ofDatum (.primitive b.held) _ = .ok (.primitive b.held) _ from rfl),
    if_pos (show (Value.primitive b.held).kind? = some b.held.kind from rfl)]
  rfl

theorem Twins.recounted {l l' : Link} (hl : b.Twins l l') (n : Nat) :
    b.Twins l { l' with calls := n } :=
  ⟨hl.common, hl.serves, hl.serves'⟩

variable {v w : Value}

theorem unboxed_lockstep (h : b.Related v w) :
    Lockstep b.Twins Eq ((b.scope settings).unboxed v) ((b.scope settings).unboxed w) := by
  rcases h with rfl | ⟨hc, rfl, rfl⟩
  · exact (b.closed settings).unboxed v
  · intro l l' hl
    obtain ⟨n, hn⟩ := unbox?_box settings hl hc
    have hbare : (b.scope settings).unboxed (.primitive b.held) l = .ok (.primitive b.held) l := rfl
    have hboxed : (b.scope settings).unboxed (.object b.box) l' =
        .ok (.primitive b.held) { l' with calls := n } := by
      rw [Scope.unboxed, Eval.bind_run hn]
      rfl
    rw [hbare, hboxed]
    exact ⟨rfl, hl.recounted n⟩

theorem textOf_lockstep (h : b.Related v w) :
    Lockstep b.Twins Eq ((b.scope settings).textOf v) ((b.scope settings).textOf w) := by
  rcases h with rfl | ⟨hc, rfl, rfl⟩
  · exact (b.closed settings).textOf v
  · intro l l' hl
    obtain ⟨n, hn⟩ := unbox?_box settings hl hc
    have hbare : (b.scope settings).textOf (.primitive b.held) l = .ok b.held.text l := rfl
    have hboxed : (b.scope settings).textOf (.object b.box) l' =
        .ok b.held.text { l' with calls := n } := by
      change (b.scope settings).objectText l'.target.chainBound b.box l' = _
      rw [Target.chainBound, Scope.objectText, Eval.bind_run (Eval.attempt?_run hn)]
      rfl
    rw [hbare, hboxed]
    exact ⟨rfl, hl.recounted n⟩

/-! ### Operators -/

theorem unary_lockstep (h : b.Related v w) (op : UnaryOp) :
    Lockstep b.Twins Eq ((b.scope settings).unary op v) ((b.scope settings).unary op w) := by
  refine (unboxed_lockstep h).after fun u => ?_
  split
  · split
    · exact .pure rfl
    · exact .throw _
  · exact .throw _

theorem binary_lockstep {v' w' : Value} (h : b.Related v w) (h' : b.Related v' w')
    (op : BinaryOp) : Lockstep b.Twins Eq ((b.scope settings).binary op v v')
      ((b.scope settings).binary op w w') :=
  (unboxed_lockstep h).after fun left => (unboxed_lockstep h').after fun right =>
    (b.closed settings).binaryOnUnboxed op left right

theorem condition_lockstep (h : b.Related v w) (context : String) :
    Lockstep b.Twins Eq ((b.scope settings).condition context v)
      ((b.scope settings).condition context w) := by
  refine (unboxed_lockstep h).after fun u => ?_
  split
  · exact .pure rfl
  · exact .after ((b.closed settings).typeNameOf _) fun _ => .throw _

theorem contains_lockstep (h : b.Related v w) (r : Progression) :
    Lockstep b.Twins Eq ((b.scope settings).contains (.range r) v)
      ((b.scope settings).contains (.range r) w) :=
  (unboxed_lockstep h).after fun _ => .pure rfl

theorem Related.isNull (h : b.Related v w) : v.isNull = w.isNull := by
  rcases h with rfl | ⟨-, rfl, rfl⟩ <;> rfl

/-- Only the variable itself can be one thing here and another there. -/
theorem resolve_lockstep (name : String) :
    Lockstep b.Twins b.Related ((b.scope settings).resolve name)
      ((b.scope settings).resolve name) := by
  have hclosed := b.closed settings
  have hrelated {x : Eval Value} (hx : Parallel b.Twins x) : Lockstep b.Twins b.Related x x :=
    hx.mono fun _ _ => .inl
  by_cases hname : name = b.name
  · subst hname
    have hlocal : Lockstep b.Twins (fun d d' => (Target.life b.acts).connected = true ∧
        d = .primitive b.held ∧ d' = .object b.box)
        (Remote.variableValue b.thread b.frame b.name)
        (Remote.variableValue b.thread b.frame b.name) := by
      refine ask_lockstep _ fun t hu => ?_
      simp only [bare, boxed, Target.variableValue_setLocal]
      cases hvalue : t.variableValue b.thread b.frame b.name with
      | error fault => exact Eq.refl fault
      | ok d => exact ⟨hu.connected ▸ Target.variableValue_connected hvalue, rfl, rfl⟩
    unfold Scope.resolve
    split
    · exact hrelated hclosed.thisValue
    · refine .after (hclosed.lift hclosed.visibleVariables) fun locals => ?_
      split
      · refine hlocal.lift.bind ?_
        rintro d d' ⟨hc, rfl, rfl⟩
        exact .pure (.inr ⟨hc, rfl, rfl⟩)
      · exact hrelated (hclosed.resolveField b.name)
  · refine hrelated (hclosed.resolve name (ask_lockstep _ fun t _ => ?_))
    simp only [bare, boxed, scope, Target.variableValue_setLocal_of_ne _ _ _ _ _ hname]
    exact .refl _

/-! ### Expressions -/

theorem makeRange_lockstep (kind : RangeKind) (first last step : Int64) (long : Bool) :
    Lockstep b.Twins (fun v w => v = w ∧ ∃ r, v = .range r)
      (Scope.makeRange kind first last step long) (Scope.makeRange kind first last step long) := by
  simp only [Scope.makeRange]
  split
  · exact .throw _
  · exact .pure ⟨rfl, _, rfl⟩

variable {hole : String → Eval Value}

/-- A range comes out as the same range. -/
theorem range_lockstep (kind : RangeKind) {first last : Expr} {step : Option Expr}
    (hfirst : Lockstep b.Twins b.Related ((b.scope settings).evaluate hole first)
      ((b.scope settings).evaluate hole first))
    (hlast : Lockstep b.Twins b.Related ((b.scope settings).evaluate hole last)
      ((b.scope settings).evaluate hole last))
    (hstep : ∀ s, step = some s → Lockstep b.Twins b.Related
      ((b.scope settings).evaluate hole s) ((b.scope settings).evaluate hole s)) :
    Lockstep b.Twins (fun v w => v = w ∧ ∃ r, v = .range r)
      ((b.scope settings).evaluate hole (.range kind first last step))
      ((b.scope settings).evaluate hole (.range kind first last step)) := by
  have hclosed := b.closed settings
  cases step with
  | none =>
    exact hfirst.bind fun _ _ h => (unboxed_lockstep h).after fun first =>
      hlast.bind fun _ _ h => (unboxed_lockstep h).after fun last =>
        .after (hclosed.rangeBounds first last) fun _ => makeRange_lockstep _ _ _ _ _
  | some s =>
    exact hfirst.bind fun _ _ h => (unboxed_lockstep h).after fun first =>
      hlast.bind fun _ _ h => (unboxed_lockstep h).after fun last =>
        .after (hclosed.rangeBounds first last) fun _ => (hstep s rfl).bind fun _ _ h =>
          (unboxed_lockstep h).after fun step => .after (hclosed.rangeStep step) fun _ =>
            makeRange_lockstep _ _ _ _ _

theorem templateText_lockstep {parts : List TemplatePart} (hparts : ∀ source,
    .hole source ∈ parts → Lockstep b.Twins b.Related (hole source) (hole source)) :
    Lockstep b.Twins Eq ((b.scope settings).templateText hole parts)
      ((b.scope settings).templateText hole parts) := by
  induction parts with
  | nil => exact .pure rfl
  | cons part parts ih =>
    have hrest := ih fun source hm => hparts source (List.mem_cons_of_mem _ hm)
    cases part with
    | text s => exact hrest.after fun _ => .pure rfl
    | name n =>
      exact (resolve_lockstep n).bind fun _ _ h => (textOf_lockstep h).after fun _ =>
        hrest.after fun _ => .pure rfl
    | hole source =>
      exact (hparts source List.mem_cons_self).bind fun _ _ h => (textOf_lockstep h).after fun _ =>
        hrest.after fun _ => .pure rfl

/-- Given that holes evaluate alike, expressions do. -/
theorem evaluate_lockstep (hhole : ∀ source, (∀ e, parse source = .ok e → e.Computes) →
    Lockstep b.Twins b.Related (hole source) (hole source)) {e : Expr} (he : e.Computes) :
    Lockstep b.Twins b.Related ((b.scope settings).evaluate hole e)
      ((b.scope settings).evaluate hole e) := by
  have hsame {x y : Eval Value} (h : Lockstep b.Twins Eq x y) : Lockstep b.Twins b.Related x y :=
    h.mono fun _ _ => .inl
  induction he with
  | literal value => exact .pure (.inl rfl)
  | name name => exact resolve_lockstep name
  | unary op _ ih => exact ih.bind fun _ _ h => hsame (unary_lockstep h op)
  | @binary op l r _ _ ihl ihr =>
    have hplain : Lockstep b.Twins b.Related
        (do
          let left ← (b.scope settings).evaluate hole l
          let right ← (b.scope settings).evaluate hole r
          (b.scope settings).binary op left right)
        (do
          let left ← (b.scope settings).evaluate hole l
          let right ← (b.scope settings).evaluate hole r
          (b.scope settings).binary op left right) :=
      ihl.bind fun _ _ h => ihr.bind fun _ _ h' => hsame (binary_lockstep h h' op)
    cases op
    case and =>
      refine ihl.bind fun _ _ h => (condition_lockstep h _).after fun first => ?_
      split
      · exact ihr.bind fun _ _ h => (condition_lockstep h _).after fun _ => .pure (.inl rfl)
      · exact .pure (.inl rfl)
    case or =>
      refine ihl.bind fun _ _ h => (condition_lockstep h _).after fun first => ?_
      split
      · exact .pure (.inl rfl)
      · exact ihr.bind fun _ _ h => (condition_lockstep h _).after fun _ => .pure (.inl rfl)
    all_goals exact hplain
  | conditional _ _ _ ihc ihy ihn =>
    refine ihc.bind fun _ _ h => (condition_lockstep h _).after fun holds => ?_
    split
    · exact ihy
    · exact ihn
  | elvis _ _ ihl ihr =>
    refine ihl.bind fun v w h => ?_
    rw [h.isNull]
    split
    · exact ihr
    · exact .pure h
  | template hholes _ =>
    exact hsame ((templateText_lockstep fun source hm => hhole source (hholes source hm)).map
      fun _ _ => congrArg Value.ofString)
  | range kind _ _ _ ihf ihl ihs =>
    exact (range_lockstep kind ihf ihl ihs).mono fun _ _ h => .inl h.1
  | contains kind negated _ _ _ _ ihe ihf ihl ihs =>
    refine ihe.bind fun v w h => (range_lockstep kind ihf ihl ihs).bind ?_
    rintro _ _ ⟨rfl, r, rfl⟩
    exact (contains_lockstep h r).after fun _ => .pure (.inl rfl)

/-- By induction on how deep holes may still nest. -/
theorem evaluateHole_lockstep (depth : Nat) {source : String}
    (hsource : ∀ e, parse source = .ok e → e.Computes) :
    Lockstep b.Twins b.Related ((b.scope settings).evaluateHole depth source)
      ((b.scope settings).evaluateHole depth source) := by
  induction depth generalizing source with
  | zero => exact .throw _
  | succ depth ih =>
    unfold Scope.evaluateHole
    split
    · exact .throw _
    · rename_i e he
      exact evaluate_lockstep (fun _ h => ih h) (hsource e he)

theorem run_lockstep (settings : EvalSettings) {e : Expr} (he : e.Computes) :
    Lockstep b.Twins b.Related ((b.scope settings).run e) ((b.scope settings).run e) :=
  evaluate_lockstep (fun _ h => evaluateHole_lockstep _ h) he

end Values

/-- Whether the variable holds the primitive or the box, an expression that only computes fails with
the same error or has a value that is the same after unboxing. -/
theorem boxing_transparent (b : BoxedLocal) (settings : EvalSettings) {e : Expr}
    (he : e.Computes) (calls calls' : Nat) :
    match (b.scope settings).run e { target := b.bare (Target.life b.acts), calls },
      (b.scope settings).run e { target := b.boxed (Target.life b.acts), calls := calls' } with
    | .ok v l, .ok w l' => (Link.outcome ((b.scope settings).unboxed v) l).1 =
        (Link.outcome ((b.scope settings).unboxed w) l').1
    | .error error _, .error error' _ => error = error'
    | _, _ => False := by
  have htwins : b.Twins { target := b.bare (Target.life b.acts), calls }
      { target := b.boxed (Target.life b.acts), calls := calls' } :=
    ⟨⟨_, .refl _ _, rfl, rfl⟩, fun _ _ => rfl, fun _ _ => rfl⟩
  have hrun := run_lockstep settings he _ _ htwins
  cases hv : (b.scope settings).run e { target := b.bare (Target.life b.acts), calls } <;>
    cases hw : (b.scope settings).run e
      { target := b.boxed (Target.life b.acts), calls := calls' } <;>
    simp only [hv, hw] at hrun ⊢
  · exact (unboxed_lockstep hrun.1).outcome_eq hrun.2
  · exact hrun.1

/-- A template with the number seven, and with a box of it. -/
theorem boxing_transparent_template :
    ∃ (b : BoxedLocal) (e : Expr), e.Computes ∧
      (Link.outcome ((b.scope {}).run e)
        { target := b.boxed (Target.life b.acts) }).1.toOption.bind (·.localText?) =
          some "-x is -7" ∧
      match (b.scope {}).run e { target := b.bare (Target.life b.acts) },
        (b.scope {}).run e { target := b.boxed (Target.life b.acts) } with
      | .ok v l, .ok w l' => (Link.outcome ((b.scope {}).unboxed v) l).1 =
          (Link.outcome ((b.scope {}).unboxed w) l').1
      | .error error _, .error error' _ => error = error'
      | _, _ => False := by
  have hplain : (Expr.unary .neg (.name "x")).Plain := .unary .neg (.name (by decide))
  have hparse : parse "- x" = .ok (.unary .neg (.name "x")) := by
    obtain ⟨tokens, htokens, hlexemes⟩ := tokenize_written (hplain.legible false)
    rw [show "- x" = " ".intercalate (((Expr.unary .neg (.name "x")).lexemes false).map
      (·.written)) by decide, parse, htokens]
    exact (hplain.parsed false).parseTokens_eq hlexemes
  let acts : List Target.Act := [.change (.define { name := "java.lang.Integer" } true),
    .change (.newObject 5 [("value", .primitive (.int 7))]), .change .addThread,
    .change (.pushFrame 7 5 none 1 [⟨"x", "java.lang.Object", .null⟩])]
  have hcell : (Target.life acts).object? 6 =
      some (.instance 5 [("value", .primitive (.int 7))]) := by rfl
  have htype : ((Target.life acts).type? 5).map (·.name) = some "java.lang.Integer" := by
    decide +kernel
  obtain ⟨e, he, hname⟩ := Option.map_eq_some_iff.mp htype
  let b : BoxedLocal := ⟨acts, 7, 8, "x", .int 7, 6, 5, _, e, hcell, rfl, he, hname⟩
  have hcomputes : (Expr.template [.text "-x is ", .hole "- x"]).Computes := by
    refine .template fun source hm e he => ?_
    obtain rfl : source = "- x" := by simpa using hm
    obtain rfl := Except.ok.inj (he.symm.trans hparse)
    exact .unary .neg (.name "x")
  refine ⟨b, .template [.text "-x is ", .hole "- x"], hcomputes, ?_,
    boxing_transparent b {} hcomputes 0 0⟩
  simp only [b, acts, scope, boxed]
  decide +kernel

end BoxedLocal

end Debugger
