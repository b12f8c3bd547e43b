import Debugger.Proofs.EvaluationFrame
import Debugger.Proofs.Operations

/-!
Hits: counting one and deciding what becomes of it. Conditions and log messages may run code of the
target, but they leave its requests alone.
-/

namespace Debugger

namespace Target

theorem Evolves.admits (thread : ThreadId) (mayRun : Prop) : Admits Evolves thread mayRun where
  refl := .refl
  trans := .trans
  ensureType := ensureType_evolves
  allocate := allocate_evolves
  log _ _ _ _ := .of_same rfl rfl rfl rfl (Nat.le_refl _) fun h => h

theorem resume_evolves {t t' : Target} {thread : ThreadId} (h : t.resume thread = .ok t') :
    t.Evolves t' := by
  rw [resume_ok h]
  exact updateThread_evolves t _ _

end Target

namespace Link

/-- Only what happens to a target anyway happened to it, and calls are refused as before. -/
structure Undisturbed (l l' : Link) : Prop where
  evolves : l.target.Evolves l'.target
  refuses : l'.refuses = l.refuses

theorem Undisturbed.of_evolves (l : Link) (calls : Nat) (t : Target) (h : l.target.Evolves t) :
    l.Undisturbed { l with calls, target := t } :=
  ⟨h, rfl⟩

theorem resume_undisturbed (thread : ThreadId) : Leads Undisturbed (Remote.resume thread) := by
  unfold Remote.resume orderOnly
  refine order_leads Undisturbed.of_evolves .refl _ fun t u t' h => ?_
  dsimp only at h
  cases hok : t.resume thread with
  | error fault =>
    rw [hok] at h
    contradiction
  | ok t'' =>
    rw [hok] at h
    cases h
    exact Target.resume_evolves hok

/-- No evaluation disturbs requests, whether or not it may run code. -/
theorem undisturbed_lasting (scope : Scope) : Lasting Undisturbed scope :=
  (Target.Evolves.admits _ _).lasting Undisturbed.of_evolves (fun _ => ⟨.refl _, rfl⟩)
    fun h h' => ⟨h.evolves.trans h'.evolves, h'.refuses.trans h.refuses⟩

end Link

namespace Registry

theorem decide_run {r : Registry} {l : Link} (h : r.Sound l.target) (settings : EvalSettings)
    (request : RequestId) (thread : ThreadId) :
    ∃ decision l', Gate.decide settings r request thread l =
        ((decision, (r.recordHit request).2), l') ∧
      Moves (r, l) ((r.recordHit request).2, l') := by
  have hleads := decide_leads (fun frame => Link.undisturbed_lasting ⟨thread, frame, settings⟩)
    r request l
  have hmoves := recordHit_run h request
  have hout : (Gate.decide settings r request thread l).1.2 = (r.recordHit request).2 := by
    simp only [Gate.decide]
    rcases r.recordHit request with ⟨_ | b, r'⟩ <;> rfl
  refine ⟨(Gate.decide settings r request thread l).1.1,
    (Gate.decide settings r request thread l).2, by rw [← hout]; rfl, ?_, hmoves.listed⟩
  exact hmoves.steps.tail (.elapse hleads.evolves hleads.refuses)

end Registry

end Debugger
