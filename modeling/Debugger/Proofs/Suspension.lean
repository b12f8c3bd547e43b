import Debugger.Proofs.HitLog
import Debugger.Proofs.Logpoints
import Debugger.Proofs.RegistryFrame

/-!
Suspension: what lets a suspended thread go. A session does so where its user resumes the thread,
and where a hit on the thread is not decided as a stop; each hit is decided on its own.
-/

namespace Debugger

namespace Target

/-- The thread does not go on. -/
def Rests (thread : ThreadId) (t t' : Target) : Prop :=
  t.isSuspended thread = true → t'.isSuspended thread = true

variable {thread : ThreadId} {t t' t'' : Target}

theorem Rests.refl (thread : ThreadId) (t : Target) : Rests thread t t := fun h => h

theorem Rests.trans (h : Rests thread t t') (h' : Rests thread t' t'') : Rests thread t t'' :=
  fun hs => h' (h hs)

theorem Rests.of_threads (h : t'.threads = t.threads) : Rests thread t t' := by
  intro hs
  rw [isSuspended, thread?, h]
  exact hs

/-- Threads may change as long as this one stays suspended. -/
theorem rests_updateThread (t : Target) (id : ThreadId) {f : Thread → Thread}
    (hid : ∀ th, (f th).id = th.id)
    (hf : id = thread → ∀ th, th.suspended = true → (f th).suspended = true) :
    Rests thread t (t.updateThread id f) := by
  have hkey : ((fun th : Thread => decide (th.id = thread)) ∘ fun th => if th.id = id then f th
      else th) = fun th => decide (th.id = thread) := by
    funext th
    simp only [Function.comp_apply]
    split
    · rw [hid]
    · rfl
  intro hs
  obtain ⟨th, hth, hsusp⟩ := (Option.any_eq_true _ _).mp hs
  have hthread : th.id = thread := by simpa using List.find?_some hth
  rw [thread?] at hth
  simp only [isSuspended, thread?, updateThread, List.find?_map, hkey, hth, Option.map_some,
    Option.any_some]
  split
  · rename_i he
    exact hf (he.symm.trans hthread) th hsusp
  · exact hsusp

theorem rests_admits (thread thread' : ThreadId) (mayRun : Prop) :
    Admits (Rests thread) thread' mayRun where
  refl := .refl thread
  trans := .trans
  ensureType t name := by
    unfold ensureType
    split <;> exact .of_threads rfl
  allocate _ _ := .of_threads rfl
  log _ _ _ _ := .of_threads rfl

/-- Whatever happens to a target, no thread goes on by itself. -/
theorem Change.rests (thread : ThreadId) (t : Target) (c : Change) :
    Rests thread t (c.apply t) := by
  have hsuspend (t : Target) (id : ThreadId) : Rests thread t (t.suspend id) :=
    rests_updateThread t id (fun _ => rfl) fun _ _ _ => rfl
  cases c with
  | define | newObject | newString | collect | emit | disconnect => exact .of_threads rfl
  | load type =>
    refine .of_threads ?_
    simp only [apply, Target.load]
    split
    · rfl
    · split <;> rfl
  | newArray element elements =>
    exact ((rests_admits thread 0 True).ensureType t _).trans (.of_threads rfl)
  | addThread =>
    intro hs
    obtain ⟨th, hth, hsusp⟩ := (Option.any_eq_true _ _).mp hs
    rw [thread?] at hth
    rw [isSuspended, thread?, show (apply t .addThread).threads =
      t.threads ++ [⟨t.lastId + 1, true, []⟩] from rfl, List.find?_append, hth]
    exact hsusp
  | pushFrame id type this line locals =>
    exact .trans (.of_threads rfl) (rests_updateThread _ id (fun _ => rfl) fun _ _ h => h)
  | setLocal id frame name value =>
    exact rests_updateThread t id (fun _ => rfl) fun _ _ h => h
  | suspend id => exact hsuspend t id
  | hit request id =>
    simp only [apply, Target.hit]
    split
    · exact (hsuspend t id).trans (.of_threads rfl)
    · exact hsuspend t id

end Target

namespace Link

/-- The same over a link. -/
def Rests (thread : ThreadId) (l l' : Link) : Prop :=
  l.target.Rests thread l'.target

variable {thread : ThreadId}

theorem rests_of_order {α : Type} (c : Call) {act : Target → Except Fault (α × Target)}
    (h : ∀ t a t', act t = .ok (a, t') → t.Rests thread t') :
    Leads (Rests thread) (order c act) :=
  order_leads (fun _ _ _ hr => hr) (.refl thread) c h

theorem rests_of_orderOnly (c : Call) {act : Target → Except Fault Target}
    (h : ∀ t t', act t = .ok t' → t.Rests thread t') : Leads (Rests thread) (orderOnly c act) :=
  orderOnly_leads (fun _ _ _ hr => hr) (.refl thread) c h

/-- No call of an evaluation or a registry lets a thread go. -/
theorem rests_enduring (thread : ThreadId) (scope : Scope) : Enduring (Rests thread) scope where
  toLasting := (Target.rests_admits thread _ _).lasting (fun _ _ _ h => h)
    (fun _ => .refl thread _) .trans
  create location := rests_of_order _ fun t a t' hok => by
    rw [(Target.createRequest_ok hok).2]
    exact .of_threads rfl
  switch id enabled := rests_of_orderOnly _ fun t t' hok => by
    rw [Target.setRequestEnabled_ok hok]
    exact .of_threads rfl
  delete id := rests_of_orderOnly _ fun t t' hok => by
    rcases Target.deleteRequest_cases hok with ⟨-, rfl⟩ | ⟨-, rfl⟩ <;> exact .of_threads rfl
  subscribe filter := rests_of_order _ fun t a t' hok => by
    rw [(Target.subscribeLoads_ok hok).1]
    exact .of_threads rfl

/-- Another thread may be let go. -/
theorem rests_resume {other : ThreadId} (hne : other ≠ thread) :
    Leads (Rests thread) (Remote.resume other) := by
  refine rests_of_orderOnly _ fun t t' hok => ?_
  rw [Target.resume_ok hok]
  exact Target.rests_updateThread t other (fun _ => rfl) fun he => absurd he hne

end Link

namespace Session

/-- Where no hit that is handled lets the thread go, it does not go on. A hit on which nothing is
ever decided does not let it go either. -/
def Rests (thread : ThreadId) (s : Session × Link) (hits : List Hit) (s' : Session × Link) : Prop :=
  (∀ h ∈ hits, h.handled = true → h.thread = thread → h.decision.all (·.stops) = true) →
    s.2.Rests thread s'.2

theorem serial_rests (thread : ThreadId) : Serial (Rests thread) where
  refl _ _ := .refl thread _
  trans h h' hstops :=
    (h fun hit hm => hstops hit (List.mem_append_left _ hm)).trans
      (h' fun hit hm => hstops hit (List.mem_append_right _ hm))

variable (thread : ThreadId)

theorem decide_rests (s : Session) (request : RequestId) (other : ThreadId) :
    LeadsOver (Link.Rests thread) (s.decide request other) := by
  have h := Link.rests_enduring thread ⟨other, 0, s.settings.evaluation⟩
  have hdecide := decide_leads
    (fun frame => (Link.rests_enduring thread ⟨other, frame, s.settings.evaluation⟩).toLasting)
    s.registry request
  exact h.overBind hdecide fun _ => h.overPure _

theorem handle_rests (s : Session × Link) (event : Event) :
    Rests thread s (eventHits s event) (step s (.handle event)) := by
  obtain ⟨s, l⟩ := s
  have h := Link.rests_enduring thread ⟨0, 0, s.settings.evaluation⟩
  cases event with
  | typeLoaded type => exact fun _ => h.sessionOnTypeLoaded s type l
  | hit request other location =>
    intro hstops
    have hdecide := decide_rests thread s request other l
    have hquiet (hne : other ≠ thread) (l : Link) : l.Rests thread (resumeQuietly other l).2 :=
      h.overBind (h.result? (Link.rests_resume hne)) (fun _ => h.overPure _) l
    have hdecision : other = thread → (s.decide request other l).1.1.all (·.stops) = true :=
      hstops _ (List.mem_singleton_self _) rfl
    change l.Rests thread (s.handle (.hit request other location) l).2
    simp only [handle, OverLink.bind_run]
    generalize s.decide request other l = out at hdecide hdecision ⊢
    obtain ⟨⟨decision, s'⟩, l'⟩ := out
    -- Only a decision that is no stop lets the thread of the hit go.
    rcases decision with _ | id | _ | ⟨id, message⟩
    case none => exact hdecide
    case some.stop => exact hdecide
    case some.goOn =>
      have hne : other ≠ thread := fun he => Bool.false_ne_true (hdecision he)
      exact hdecide.trans (hquiet hne l')
    case some.log =>
      have hne : other ≠ thread := fun he => Bool.false_ne_true (hdecision he)
      exact hdecide.trans (hquiet hne l')
  | step | exception => exact fun _ => .refl thread _
  | terminated => exact fun _ => h.sessionClear s l

theorem step_rests {act : Act} (hact : act ≠ .resume thread) (s : Session × Link) :
    Rests thread s (act.hits s) (step s act) := by
  obtain ⟨s, l⟩ := s
  have h := Link.rests_enduring thread ⟨0, 0, s.settings.evaluation⟩
  cases act with
  | add spec => exact fun _ => h.sessionAdd s spec l
  | remove id => exact fun _ => h.sessionRemove s id l
  | setEnabled id enabled => exact fun _ => h.sessionSetEnabled s id enabled l
  | onTypeLoaded type => exact fun _ => h.sessionOnTypeLoaded s type l
  | rescan => exact fun _ => h.sessionRescan s l
  | decide request other => exact fun _ => decide_rests thread s request other l
  | handle event => exact handle_rests thread (s, l) event
  | attend hearing arrivals =>
    refine (serial_rests thread).attend (handle_rests thread) ?_ ?_
    · exact fun s _ => h.sessionRescan s.1 s.2
    · exact fun s l _ => h.sessionUnsubscribe s l
  | evaluate other frame text =>
    have hscope := (Link.rests_enduring thread ⟨other, frame, s.settings.evaluation⟩).toLasting
    have hevaluate : LeadsOver (Link.Rests thread) (s.evaluate other frame text) := by
      refine h.overBind (tryEvaluate_leads hscope text) fun p => ?_
      obtain ⟨_ | _, s'⟩ := p <;> exact h.overPure _
    exact fun _ => hevaluate l
  | resume other =>
    have hne : other ≠ thread := fun he => hact (he ▸ rfl)
    exact fun _ => (Link.rests_resume hne).outcome l
  | pin | unpin => exact fun _ => .refl thread _
  | change c => exact fun _ => Target.Change.rests thread l.target c

/-- A thread that a breakpoint has stopped stays suspended, whatever else is done and happens, until
its user lets it go or a later hit on it is decided otherwise. -/
theorem stop_held (s : Session × Link) {request : RequestId} {thread : ThreadId}
    {location : Location} {id : BreakpointId}
    (hstop : (s.1.handle (.hit request thread location) s.2).1.1 =
      some [.stopped thread (.breakpoint id)])
    (hsuspended : s.2.target.isSuspended thread = true) {acts : List Act}
    (hresume : .resume thread ∉ acts)
    (hhits : ∀ h ∈ hits acts (step s (.handle (.hit request thread location))),
      h.handled = true → h.thread = thread → h.decision.all (·.stops) = true) :
    (run acts (step s (.handle (.hit request thread location)))).2.target.isSuspended thread =
      true := by
  have hdecision : (s.1.decide request thread s.2).1.1.all (·.stops) = true := by
    rw [handle_hit] at hstop
    generalize (s.1.decide request thread s.2).1.1 = decision at hstop
    rcases decision with _ | id | _ | ⟨id, message⟩
    case none | some.stop => rfl
    case some.goOn | some.log => simp [Decision.notices] at hstop
  have hfirst := handle_rests thread s (.hit request thread location) fun h hm _ _ => by
    obtain rfl := List.mem_singleton.mp hm
    exact hdecision
  refine (serial_rests thread).run (fun act hm s => ?_) _ hhits (hfirst hsuspended)
  exact step_rests thread (fun he => hresume (he ▸ hm)) s

/-- A target whose thread has reached a line with two breakpoints, of which the second never holds.
Both of their requests are hit. -/
def twoOnLine : List Act := [
  .change (.define { name := "a.B", sourceFile := some "B.kt", lines := [3] } true),
  .change .addThread, .change (.pushFrame 6 5 none 3 []),
  .add { site := .line "B.kt" 3 }, .add { site := .line "B.kt" 3, condition := some "false" },
  .change (.hit 2 6), .change (.hit 3 6)]

/-- The first breakpoint stops again and is switched off, and another thread is resumed. -/
theorem stop_held_again :
    let s := step (run twoOnLine (connect {} fun _ _ => none)) (.handle (.hit 2 6 ⟨5, 0, 3, 3⟩))
    (run [.handle (.hit 2 6 ⟨5, 0, 3, 3⟩), .setEnabled 1 false, .resume 8] s).2.target.isSuspended
      6 = true := by
  have hstop : ((run twoOnLine (connect {} fun _ _ => none)).1.handle (.hit 2 6 ⟨5, 0, 3, 3⟩)
      (run twoOnLine (connect {} fun _ _ => none)).2).1.1 =
        some [.stopped 6 (.breakpoint 1)] := by
    decide +kernel
  have hsuspended : (run twoOnLine (connect {} fun _ _ => none)).2.target.isSuspended 6 = true := by
    decide +kernel
  have hhits : ∀ h ∈ hits [.handle (.hit 2 6 ⟨5, 0, 3, 3⟩), .setEnabled 1 false, .resume 8]
      (step (run twoOnLine (connect {} fun _ _ => none)) (.handle (.hit 2 6 ⟨5, 0, 3, 3⟩))),
      h.handled = true → h.thread = 6 → h.decision.all (·.stops) = true := by
    decide +kernel
  exact stop_held (run twoOnLine (connect {} fun _ _ => none)) hstop hsuspended (by simp) hhits

/-- The hit of the second breakpoint lets the thread go that the first one has stopped. -/
theorem stop_undone :
    let s := run twoOnLine (connect {} fun _ _ => none)
    let first : Act := .handle (.hit 2 6 ⟨5, 0, 3, 3⟩)
    let second : Act := .handle (.hit 3 6 ⟨5, 0, 3, 3⟩)
    s.2.target.isSuspended 6 = true ∧
      (s.1.handle (.hit 2 6 ⟨5, 0, 3, 3⟩) s.2).1.1 = some [.stopped 6 (.breakpoint 1)] ∧
      (run [first] s).2.target.isSuspended 6 = true ∧
      (run [first, second] s).2.target.connected = true ∧
      (run [first, second] s).2.target.isSuspended 6 = false := by
  decide +kernel

end Session

end Debugger
