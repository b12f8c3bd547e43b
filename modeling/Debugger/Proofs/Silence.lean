import Debugger.Proofs.EvaluationFrame

/-!
Silence: where the settings forbid invocations, nothing that an evaluation does runs code in the
target.
-/

namespace Debugger

/-- The same invocations are logged at both ends. -/
def Target.Silent (t t' : Target) : Prop :=
  t'.invocations = t.invocations

def Link.Silent (l l' : Link) : Prop :=
  l.target.Silent l'.target

theorem Target.silent_admits (thread : ThreadId) : Admits Silent thread False where
  refl _ := rfl
  trans h h' := h'.trans h
  ensureType t name := by
    unfold ensureType
    split <;> rfl
  allocate _ _ := rfl
  log h := h.elim

theorem Link.silent_lasting {scope : Scope} (hoff : scope.settings.allowInvocation = false) :
    Lasting Silent scope := by
  have hnever : scope.settings.allowInvocation = true ↔ False := by simp [hoff]
  have h := Target.silent_admits scope.thread
  rw [← hnever] at h
  exact h.lasting (fun _ _ _ hs => hs) (fun _ => rfl) fun hs hs' => Eq.trans hs' hs

/-- Without permission no code runs, whatever is evaluated, shown or decided, on whichever frame,
and whichever calls fail. -/
theorem invocations_forbidden {settings : EvalSettings} (hoff : settings.allowInvocation = false)
    (thread : ThreadId) (frame : FrameId) :
    (∀ e, Leads Link.Silent (Scope.run ⟨thread, frame, settings⟩ e)) ∧
    (∀ v, Leads Link.Silent (Scope.display ⟨thread, frame, settings⟩ v)) ∧
    (∀ v, Leads Link.Silent (Scope.textOf ⟨thread, frame, settings⟩ v)) ∧
    (∀ v, Leads Link.Silent (Eval.typeNameOf v)) ∧
    (∀ (s : Session) text, s.settings.evaluation = settings →
      LeadsOver Link.Silent (s.tryEvaluate thread frame text)) ∧
    ∀ r request, LeadsOver Link.Silent (Gate.decide settings r request thread) := by
  have h (frame : FrameId) : Lasting Link.Silent ⟨thread, frame, settings⟩ :=
    Link.silent_lasting hoff
  refine ⟨(h frame).run, (h frame).display, (h frame).textOf, (h frame).typeNameOf, ?_, ?_⟩
  · rintro s text rfl
    exact Session.tryEvaluate_leads (h frame) text
  · exact fun r request => decide_leads h r request

/-- A call that runs a method where that is allowed runs nothing where it is not. -/
theorem invocations_forbidden_call : ∃ (l : Link) (e : Syntax.Expr),
    (l.after (Scope.run ⟨8, 9, {}⟩ e)).target.invocations.map (·.name) = ["explode"] ∧
      l.Silent (l.after (Scope.run ⟨8, 9, { allowInvocation := false }⟩ e)) := by
  let defined := Target.start.define { name := "a.B", methods := [{ name := "explode" }] } true
  let threaded := (defined.2.newObject 5 []).2.addThread
  let stopped := threaded.2.pushFrame 8 5 (some 7) 1 []
  refine ⟨{ target := stopped.2 }, .call none "explode" [] false, by decide +kernel, ?_⟩
  exact (invocations_forbidden rfl 8 9).1 _ _

end Debugger
