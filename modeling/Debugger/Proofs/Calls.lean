import Debugger.Eval.Basic

/-!
How conversations run: what a call answers, and which link it leaves behind.
-/

namespace Debugger

theorem OverLink.bind_run {α β : Type} (x : OverLink α) (f : α → OverLink β) (l : Link) :
    (x >>= f) l = f (x l).1 (x l).2 := rfl

theorem OverLink.pure_run {α : Type} (a : α) (l : Link) : (pure a : OverLink α) l = (a, l) := rfl

theorem OverLink.discard_run {α : Type} (x : OverLink α) (l : Link) :
    (discard x : OverLink PUnit) l = ((), (x l).2) := rfl

namespace Link

/-- What a call answers: the refusal, or what the target says. -/
def answer {α : Type} (l : Link) (c : Call) (act : Target → Except Fault α) : Except Fault α :=
  match l.refuses l.calls c with
  | some fault => .error fault
  | none => act l.target

/-- The link after one more call. -/
def counted (l : Link) : Link :=
  { l with calls := l.calls + 1 }

/-- The target is there, and no call to it is refused. -/
structure Reliable (l : Link) : Prop where
  connected : l.target.connected = true
  serves : ∀ n c, l.refuses n c = none

@[simp] theorem counted_target (l : Link) : l.counted.target = l.target := rfl

theorem Reliable.of_eq {l l' : Link} (h : l.Reliable) (hc : l'.target.connected = true)
    (hr : l'.refuses = l.refuses) : l'.Reliable :=
  ⟨hc, fun n c => by rw [hr]; exact h.serves n c⟩

theorem Reliable.answer {l : Link} (h : l.Reliable) {α : Type} (c : Call)
    (act : Target → Except Fault α) : l.answer c act = act l.target := by
  rw [Link.answer, h.serves]

/-- An answer that is not an error comes from the target. -/
theorem answer_ok {α : Type} {l : Link} {c : Call} {act : Target → Except Fault α} {a : α}
    (h : l.answer c act = .ok a) : act l.target = .ok a := by
  unfold answer at h
  split at h
  · contradiction
  · exact h

theorem ask_outcome {α : Type} (c : Call) (act : Target → Except Fault α) (l : Link) :
    (ask c act : Remote α).outcome l = (l.answer c act, l.counted) := by
  simp only [Remote.outcome, Link.outcome, ask, call, answer]
  cases l.refuses l.calls c with
  | some fault => rfl
  | none => cases act l.target <;> rfl

theorem order_outcome {α : Type} (c : Call) (act : Target → Except Fault (α × Target)) (l : Link) :
    (order c act : Remote α).outcome l = match l.answer c act with
      | .ok (a, t) => (.ok a, { l.counted with target := t })
      | .error fault => (.error fault, l.counted) := by
  simp only [Remote.outcome, Link.outcome, order, call, answer]
  cases l.refuses l.calls c with
  | some fault => rfl
  | none => cases act l.target <;> rfl

theorem result?_run {α : Type} (x : Remote α) (l : Link) :
    x.result? l = ((x.outcome l).1.toOption, (x.outcome l).2) := by
  simp only [Remote.result?, OverLink.bind_run]
  cases (x.outcome l).1 <;> rfl

theorem ask_result? {α : Type} (c : Call) (act : Target → Except Fault α) (l : Link) :
    (ask c act : Remote α).result? l = ((l.answer c act).toOption, l.counted) := by
  rw [result?_run, ask_outcome]

/-- An order either fails and changes nothing, or does its part. -/
theorem order_result? {α : Type} (c : Call) (act : Target → Except Fault (α × Target)) (l : Link) :
    (order c act : Remote α).result? l = match l.answer c act with
      | .ok (a, t) => (some a, { l.counted with target := t })
      | .error _ => (none, l.counted) := by
  rw [result?_run, order_outcome]
  cases l.answer c act <;> rfl

theorem orderOnly_outcome (c : Call) (act : Target → Except Fault Target) (l : Link) :
    (orderOnly c act : Remote Unit).outcome l = match l.answer c act with
      | .ok t => (.ok (), { l.counted with target := t })
      | .error fault => (.error fault, l.counted) := by
  simp only [orderOnly, order_outcome, answer]
  cases l.refuses l.calls c with
  | some fault => rfl
  | none => cases act l.target <;> rfl

theorem orderOnly_result? (c : Call) (act : Target → Except Fault Target) (l : Link) :
    (orderOnly c act : Remote Unit).result? l = match l.answer c act with
      | .ok t => (some (), { l.counted with target := t })
      | .error _ => (none, l.counted) := by
  rw [result?_run, orderOnly_outcome]
  cases l.answer c act <;> rfl

end Link

/-! ### Runs that succeed -/

namespace Eval

variable {α β : Type} {x : Eval α} {l l' : Link}

theorem bind_ok {f : α → Eval β} {b : β} (h : (x >>= f) l = .ok b l') :
    ∃ a l₁, x l = .ok a l₁ ∧ f a l₁ = .ok b l' := by
  simp only [bind, EStateM.bind] at h
  split at h
  · rename_i a l₁ hx
    exact ⟨a, l₁, hx, h⟩
  · contradiction

theorem map_ok {f : α → β} {b : β} (h : (f <$> x) l = .ok b l') :
    ∃ a, x l = .ok a l' ∧ f a = b := by
  simp only [Functor.map, EStateM.map] at h
  split at h
  · rename_i a l₁ hx
    cases h
    exact ⟨a, hx, rfl⟩
  · contradiction

theorem map_run {f : α → β} {a : α} (h : x l = .ok a l') : (f <$> x) l = .ok (f a) l' := by
  simp only [Functor.map, EStateM.map, h]

/-- What comes after a conversation that succeeds starts from what it leaves. -/
theorem bind_run {f : α → Eval β} {a : α} (h : x l = .ok a l') : (x >>= f) l = f a l' := by
  simp only [bind, EStateM.bind, h]

/-- What comes after a conversation that fails does not happen. -/
theorem bind_error {f : α → Eval β} {e : EvalError} (h : x l = .error e l') :
    (x >>= f) l = .error e l' := by
  simp only [bind, EStateM.bind, h]

/-- A conversation in two parts fails in one of them. -/
theorem error_of_bind {f : α → Eval β} {e : EvalError} (h : (x >>= f) l = .error e l') :
    x l = .error e l' ∨ ∃ a l₁, x l = .ok a l₁ ∧ f a l₁ = .error e l' := by
  simp only [bind, EStateM.bind] at h
  split at h
  · rename_i a l₁ hx
    exact .inr ⟨a, l₁, hx, h⟩
  · rename_i hx
    cases h
    exact .inl hx

theorem attempt?_run {a : α} (h : x l = .ok a l') : x.attempt? l = .ok (some a) l' := by
  simp only [Eval.attempt?, Eval.attempt, bind, EStateM.bind, h]
  rfl

end Eval

namespace Link

variable {α : Type} {c : Call} {l l' : Link} {a : α}

theorem call_ok {act : Target → Except Fault α × Target}
    (h : (liftM (Link.call c act : Remote α) : Eval α) l = .ok a l') :
    act l.target = (.ok a, l'.target) := by
  simp only [liftM, monadLift, MonadLift.monadLift, call] at h
  split at h
  · rename_i hcall
    cases h
    split at hcall
    · contradiction
    · split at hcall
      · rename_i hact
        cases hcall
        exact hact
      · contradiction
  · contradiction

theorem ask_ok {act : Target → Except Fault α}
    (h : (liftM (Link.ask c act : Remote α) : Eval α) l = .ok a l') :
    act l.target = .ok a ∧ l'.target = l.target := by
  have hcall := call_ok h
  exact ⟨congrArg Prod.fst hcall, (congrArg Prod.snd hcall).symm⟩

theorem order_ok {act : Target → Except Fault (α × Target)}
    (h : (liftM (Link.order c act : Remote α) : Eval α) l = .ok a l') :
    act l.target = .ok (a, l'.target) := by
  have hcall := call_ok h
  split at hcall
  · rename_i hact
    cases hcall
    exact hact
  · cases hcall

theorem ask_run {act : Target → Except Fault α} (hserves : ∀ n c, l.refuses n c = none)
    (h : act l.target = .ok a) :
    (liftM (Link.ask c act : Remote α) : Eval α) l = .ok a l.counted := by
  simp only [liftM, monadLift, MonadLift.monadLift, ask, call, hserves, h]
  rfl

/-- An order may also leave the target as it is. -/
theorem order_run {act : Target → Except Fault (α × Target)}
    (hserves : ∀ n c, l.refuses n c = none) (h : act l.target = .ok (a, l.target)) :
    (liftM (Link.order c act : Remote α) : Eval α) l = .ok a l.counted := by
  simp only [liftM, monadLift, MonadLift.monadLift, order, call, hserves, h]
  rfl

end Link

/-- A value is read off the datum that it is passed as. -/
theorem Eval.datum?_of_ofDatum {d : Datum} {l l' : Link} {v : Value} (h : ofDatum d l = .ok v l') :
    v.datum? = some d := by
  cases d with
  | string id =>
    obtain ⟨text, l₁, -, h⟩ := bind_ok h
    cases h
    rfl
  | null | void | primitive | array | object =>
    cases h
    rfl

/-- Reading a datum leaves the target alone. -/
theorem Eval.ofDatum_ok {d : Datum} {l l' : Link} {v : Value} (h : ofDatum d l = .ok v l') :
    l'.target = l.target := by
  cases d with
  | string id =>
    obtain ⟨text, l₁, htext, h⟩ := bind_ok h
    cases h
    exact (Link.ask_ok htext).2
  | null | void | primitive | array | object =>
    cases h
    rfl

end Debugger
