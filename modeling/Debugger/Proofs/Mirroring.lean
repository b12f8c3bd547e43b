import Debugger.Proofs.Sessions

/-!
Mirroring: over every run of a session whose target answers, the requests at the target are those
of the breakpoints.
-/

namespace Debugger

namespace Session

/-- The requests at the target are those that the breakpoints list, each of them once. Each is
enabled as its breakpoint is and lies at code that the breakpoint asks for. There is no second
subscription, and each number stands for one request or for the subscription alone. -/
structure Mirrors (mode : SourceMatch) (s : Session) (t : Target) : Prop where
  requests : (t.requests.map (·.id)).Perm (s.registry.breakpoints.flatMap (·.requests))
  enabled : ∀ b ∈ s.registry.breakpoints, ∀ q ∈ t.requests, q.id ∈ b.requests →
    q.enabled = b.enabled
  placed : ∀ b ∈ s.registry.breakpoints, ∀ q ∈ t.requests, q.id ∈ b.requests →
    ∃ e, t.type? q.location.type = some e ∧ b.site.Concerns mode e ∧ b.site.Holds e q.location
  subscriptions : t.subscriptions.length ≤ 1
  numbers : t.NumbersDiffer

theorem Sound.mirrors {s : Session} {t : Target} (h : s.Sound t) (ha : s.Agrees t)
    (hroom : t.Unwrapped) : s.Mirrors s.settings.breakpoints.sourceMatch t := by
  have hwants {b : Breakpoint} (hb : b ∈ s.registry.breakpoints) {q : Request}
      (hq : q ∈ t.requests) (hm : q.id ∈ b.requests) :
      b.Wants s.settings.breakpoints.sourceMatch t q :=
    h.settings ▸ ha.registry.wants h.registry.toAccounted hb hq hm
  have hdiffer := h.registry.target.numbersDiffer hroom
  refine ⟨ha.registry.perm h.registry.toAccounted, ?_, ?_, ?_, hdiffer⟩
  · exact fun b hb q hq hm => (hwants hb hq hm).enabled
  · exact fun b hb q hq hm => (hwants hb hq hm).placed
  · rw [ha.watched, List.length_map]
    cases s.watch.subscription <;> simp

/-- Whatever is done with a session, as long as its target answers and the counter of its requests
has not wrapped, registry and target agree. -/
theorem run_mirrors (settings : Settings) (acts : List Act)
    (hconnected : (run acts (connect settings fun _ _ => none)).2.target.connected = true)
    (hroom : (run acts (connect settings fun _ _ => none)).2.target.Unwrapped) :
    (run acts (connect settings fun _ _ => none)).1.Mirrors settings.breakpoints.sourceMatch
      (run acts (connect settings fun _ _ => none)).2.target := by
  have hstart := connect_sound settings fun _ _ => none
  have hsteps := run_steps hstart acts
  obtain ⟨hsettings, hrefuses⟩ := hsteps.same hstart
  have hl : (run acts (connect settings fun _ _ => none)).2.Reliable :=
    ⟨hconnected, fun n c => by rw [hrefuses]; rfl⟩
  have hmirrors :=
    (hsteps.sound hstart).mirrors (hsteps.agrees hstart hl (connect_agrees _ _)) hroom
  rw [hsettings] at hmirrors
  exact hmirrors

/-- A breakpoint that is switched off gets its request when its type is loaded, switched off. -/
theorem run_mirrors_late : ∃ acts,
    (run acts (connect {} fun _ _ => none)).2.target.requests.map (·.enabled) = [false] ∧
      (run acts (connect {} fun _ _ => none)).1.Mirrors .tolerant
        (run acts (connect {} fun _ _ => none)).2.target := by
  refine ⟨[.add { site := .line "B.kt" 3 }, .setEnabled 1 false,
    .change (.define { name := "a.B", sourceFile := some "B.kt", lines := [3] } true),
    .handle (.typeLoaded 5)], by decide +kernel, ?_⟩
  exact run_mirrors {} _ (by decide +kernel) (by decide +kernel)

end Session

end Debugger
