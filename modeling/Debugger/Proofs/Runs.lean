import Debugger.Proofs.Hits

/-!
Runs of a registry: its operations in any order and with any arguments, while types come to its
target and calls may be refused.
-/

namespace Debugger

namespace Registry

/-- What is done with a registry, and what happens to its target in between. -/
inductive Act where
  | register (spec : BreakpointSpec)
  | onTypeLoaded (type : TypeId)
  | rescan
  | remove (id : BreakpointId)
  | setEnabled (id : BreakpointId) (enabled : Bool)
  | recordHit (request : RequestId)
  | decide (settings : EvalSettings) (request : RequestId) (thread : ThreadId)
  | clear
  | change (change : Target.Change)

def perform (r : Registry) : Act → OverLink Registry
  | .register spec => do return (← r.register spec).2
  | .onTypeLoaded type => do return (← r.onTypeLoaded type).2
  | .rescan => do return (← r.rescan).2
  | .remove id => do return (← r.remove id).2
  | .setEnabled id enabled => do return (← r.setEnabled id enabled).2
  | .recordHit request => return (r.recordHit request).2
  | .decide settings request thread => do return (← Gate.decide settings r request thread).2
  | .clear => r.clear
  | .change c => fun l => (r, { l with target := c.apply l.target })

def step (s : Registry × Link) (act : Act) : Registry × Link :=
  s.1.perform act s.2

def run (acts : List Act) (s : Registry × Link) : Registry × Link :=
  acts.foldl step s

/-- A registry without breakpoints on a new target, whose calls may be refused. -/
def start (settings : BreakpointSettings) (refuses : Nat → Call → Option Fault) :
    Registry × Link :=
  ({ settings }, { target := .start, refuses })

theorem run_append (before after : List Act) (s : Registry × Link) :
    run (before ++ after) s = run after (run before s) :=
  List.foldl_append

theorem run_cons (act : Act) (acts : List Act) (s : Registry × Link) :
    run (act :: acts) s = run acts (step s act) := rfl

theorem start_sound (settings : BreakpointSettings) (refuses : Nat → Call → Option Fault) :
    (start settings refuses).1.Sound (start settings refuses).2.target :=
  ⟨.empty Target.start_sound rfl rfl, rfl, rfl⟩

theorem step_moves {s : Registry × Link} (h : s.1.Sound s.2.target) (act : Act) :
    Moves s (step s act) := by
  obtain ⟨r, l⟩ := s
  cases act with
  | register spec =>
    obtain ⟨result, r', l', hrun, hregisters⟩ := register_run h spec
    change Moves (r, l) ((r.register spec l).1.2, (r.register spec l).2)
    rw [hrun]
    exact hregisters.toMoves
  | onTypeLoaded type =>
    obtain ⟨ids, r', l', hrun, hloads, -⟩ := onTypeLoaded_run h type
    change Moves (r, l) ((r.onTypeLoaded type l).1.2, (r.onTypeLoaded type l).2)
    rw [hrun]
    exact hloads.toMoves
  | rescan =>
    obtain ⟨ids, r', l', hrun, hloads, -⟩ := rescan_run h
    change Moves (r, l) ((r.rescan l).1.2, (r.rescan l).2)
    rw [hrun]
    exact hloads.toMoves
  | remove id =>
    obtain ⟨existed, r', l', hrun, hmoves, -⟩ := remove_run h id
    change Moves (r, l) ((r.remove id l).1.2, (r.remove id l).2)
    rw [hrun]
    exact hmoves
  | setEnabled id enabled =>
    obtain ⟨result, r', l', hrun, hmoves⟩ := setEnabled_run h id enabled
    change Moves (r, l) ((r.setEnabled id enabled l).1.2, (r.setEnabled id enabled l).2)
    rw [hrun]
    exact hmoves
  | recordHit request => exact recordHit_run h request
  | decide settings request thread =>
    obtain ⟨decision, l', hrun, hmoves⟩ := decide_run h settings request thread
    change Moves (r, l) ((Gate.decide settings r request thread l).1.2,
      (Gate.decide settings r request thread l).2)
    rw [hrun]
    exact hmoves
  | clear =>
    obtain ⟨l', hrun, hmoves⟩ := clear_run h
    change Moves (r, l) (r.clear l)
    rw [hrun]
    exact hmoves
  | change c => exact ⟨.single (.elapse (Target.Change.evolves l.target c) rfl), h.toListed⟩

theorem run_steps {s : Registry × Link} (h : s.1.Sound s.2.target) (acts : List Act) :
    Steps s (run acts s) := by
  induction acts generalizing s with
  | nil => exact .refl
  | cons act acts ih =>
    have hmoves := step_moves h act
    exact hmoves.steps.trans (ih (hmoves.sound h))

theorem run_sound {s : Registry × Link} (h : s.1.Sound s.2.target) (acts : List Act) :
    (run acts s).1.Sound (run acts s).2.target := by
  induction acts generalizing s with
  | nil => exact h
  | cons act acts ih => exact ih ((step_moves h act).sound h)

theorem run_follows {s : Registry × Link} (h : s.1.Sound s.2.target) (acts : List Act) :
    Follows s (run acts s) :=
  Steps.follows (run_steps h acts) h.toAccounted

/-- As long as the counter of requests has not wrapped, no two of them ever shared a number. -/
theorem run_numbersDiffer {s : Registry × Link} (h : s.1.Sound s.2.target) {acts : List Act}
    (hroom : (run acts s).2.target.Unwrapped) {before : List Act} (hbefore : before <+: acts) :
    (run before s).2.target.NumbersDiffer := by
  obtain ⟨after, rfl⟩ := hbefore
  have hsound := run_sound h before
  rw [run_append] at hroom
  have hearlier : (run before s).2.target.Unwrapped :=
    Nat.lt_of_le_of_lt (run_follows hsound after).lastRequest hroom
  exact hsound.target.numbersDiffer hearlier

end Registry

end Debugger
