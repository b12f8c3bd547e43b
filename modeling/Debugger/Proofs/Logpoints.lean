import Debugger.Proofs.HitLog

/-!
Logpoints: breakpoints with a log message. A hit lets its thread go on, unless the condition of the
breakpoint cannot be evaluated there. Where an evaluation never ends, nothing is ever decided.
-/

namespace Debugger

/-- A registry that a run of its operations, or of a session's, has led to. -/
inductive Registry.Reached : Registry → Prop
  | run (settings : BreakpointSettings) (refuses : Nat → Call → Option Fault) (acts : List Act) :
    Reached (run acts (start settings refuses)).1
  | session (settings : Settings) (refuses : Nat → Call → Option Fault)
      (acts : List Session.Act) :
    Reached (Session.run acts (Session.connect settings refuses)).1.registry

theorem Registry.Reached.accounted {r : Registry} (h : r.Reached) : ∃ t, r.Accounted t := by
  cases h with
  | run settings refuses acts =>
    exact ⟨_, (run_sound (start_sound settings refuses) acts).toAccounted⟩
  | session settings refuses acts =>
    have hstart := Session.connect_sound settings refuses
    have hsound := Session.Steps.sound (Session.run_steps hstart acts) hstart
    exact ⟨_, hsound.registry.toAccounted⟩

namespace Gate

variable {settings : EvalSettings} {thread : ThreadId}

/-- Evaluating a text on top of a thread, and what is then made of its value, comes to nothing:
there is no frame, or the text cannot be read, or one of both fails or never ends. -/
inductive Fails {α : Type} (settings : EvalSettings) (thread : ThreadId)
    (use : Scope → Value → Eval α) (text : String) (l : Link) : ExpressionError → Prop
  | frame {e : EvalError} {l' : Link} (top : Scope.top settings thread l = .error e l') :
    Fails settings thread use text l (.evaluation e)
  | reading {scope : Scope} {l' : Link} {e : SyntaxError}
      (top : Scope.top settings thread l = .ok scope l') (parse : Syntax.parse text = .error e) :
    Fails settings thread use text l (.reading e)
  | evaluation {scope : Scope} {l' l'' : Link} {tree : Syntax.Expr} {e : EvalError}
      (top : Scope.top settings thread l = .ok scope l') (parse : Syntax.parse text = .ok tree)
      (run : (scope.run tree >>= use scope) l' = .error e l'') :
    Fails settings thread use text l (.evaluation e)

section Fails

variable {α β : Type} {use : Scope → Value → Eval α} {text : String} {l : Link}
  {e : ExpressionError}

theorem Fails.error (h : Fails settings thread use text l e) :
    (evaluateOnTop settings thread text use l).1 = .error e := by
  simp only [evaluateOnTop, OverLink.bind_run, Link.outcome]
  cases h with
  | frame top =>
    rw [top]
    rfl
  | reading top parse =>
    simp only [top, Scope.evaluateText, parse]
    rfl
  | evaluation top parse run =>
    simp only [top, Scope.evaluateText, parse, OverLink.bind_run, Link.outcome, run]
    rfl

end Fails

section Counted

variable {b : Breakpoint} {l l' : Link}

end Counted

end Gate

end Debugger
