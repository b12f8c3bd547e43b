import Debugger.EventLoop
import Debugger.Proofs.Agreement
import Debugger.Proofs.Runs

/-!
Runs of a session: what its user and the events of its target make it do, and that registry and
target agree all the while.
-/

namespace Debugger

namespace Session

/-! ### Steps -/

/-- What the operations of a session consist of. -/
inductive Step : Session × Link → Session × Link → Prop
  | move {s : Session} {l l' : Link} {r : Registry}
      (moves : Registry.Moves (s.registry, l) (r, l')) :
      Step (s, l) ({ s with registry := r }, l')
  | note {s : Session} {l : Link} (handles : Handles) : Step (s, l) ({ s with handles }, l)
  /-- The only subscription is made. -/
  | subscribe {s : Session} {l l' : Link} {id : RequestId} (fresh : s.watch.subscription = none)
      (target : l.target.subscribeLoads "*" = .ok (id, l'.target))
      (refuses : l'.refuses = l.refuses) :
      Step (s, l) ({ s with watch := ⟨some id⟩ }, l')
  /-- It is ended, unless the call was refused. -/
  | unsubscribe {s : Session} {l l' : Link} {id : RequestId} {gone : List RequestId}
      (subscribed : s.watch.subscription = some id) (part : gone ⊆ [id])
      (target : l'.target = l.target.without gone) (refuses : l'.refuses = l.refuses)
      (whole : l.Reliable → gone = [id]) : Step (s, l) ({ s with watch := {} }, l')

abbrev Steps : Session × Link → Session × Link → Prop :=
  Relation.ReflTransGen Step

/-- The registry is in order, and what the session takes for its subscription is one. -/
structure Sound (s : Session) (t : Target) : Prop where
  registry : s.registry.Sound t
  settings : s.registry.settings = s.settings.breakpoints
  watched : ∀ id, s.watch.subscription = some id → (id, "*") ∈ t.subscriptions

/-- The target has the requests of the registry and the subscription of the watch, nothing else. -/
structure Agrees (s : Session) (t : Target) : Prop where
  registry : s.registry.Agrees t
  watched : t.subscriptions = s.watch.subscription.toList.map (·, "*")

variable {s s' : Session} {l l' : Link}

theorem Sound.undisturbed (h : s.Sound l.target) (hl : Link.Undisturbed l l') :
    Step (s, l) (s, l') :=
  .move ⟨.single (.elapse hl.evolves hl.refuses), h.registry.toListed⟩

/-- What a session takes for its subscription is no request. -/
theorem Sound.without_requests (h : s.Sound l.target) {id : RequestId}
    (hid : s.watch.subscription = some id) {gone : List RequestId} (hpart : gone ⊆ [id]) :
    (l.target.without gone).requests = l.target.requests :=
  Target.without_requests h.registry.target fun _ hn =>
    ⟨_, h.watched id hid, (List.mem_singleton.mp (hpart hn)).symm⟩

theorem Step.sound {s s' : Session × Link} (h : Step s s') (hs : s.1.Sound s.2.target) :
    s'.1.Sound s'.2.target := by
  cases h with
  | move hmoves =>
    have hfollows := hmoves.follows hs.registry
    refine ⟨hmoves.sound hs.registry, hfollows.settings.trans hs.settings, ?_⟩
    rw [hfollows.subscriptions]
    exact hs.watched
  | note => exact ⟨hs.registry, hs.settings, hs.watched⟩
  | @subscribe s l l' id _ htarget =>
    obtain ⟨ht, rfl⟩ := Target.subscribeLoads_ok htarget
    have hsubscribe : l'.target.Sound := by
      rw [ht]
      exact hs.registry.target.subscribe "*"
    refine ⟨⟨hs.registry.keep hsubscribe fun q hq _ => ?_, hs.registry.toListed⟩, hs.settings, ?_⟩
    · rwa [ht]
    · rintro _ ⟨⟩
      rw [ht]
      exact List.mem_append_right _ (by simp)
  | unsubscribe hid hpart ht =>
    have hreqs := ht ▸ hs.without_requests hid hpart
    refine ⟨⟨hs.registry.keep (ht ▸ hs.registry.target.without _) fun q hq _ => ?_,
      hs.registry.toListed⟩, hs.settings, ?_⟩
    · rwa [hreqs]
    · rintro _ ⟨⟩

theorem Steps.sound {s s' : Session × Link} (h : Steps s s') (hs : s.1.Sound s.2.target) :
    s'.1.Sound s'.2.target := by
  induction h with
  | refl => exact hs
  | tail _ hstep ih => exact hstep.sound ih

/-- Neither what the session is told to do nor which calls are refused changes. -/
theorem Step.same {s s' : Session × Link} (h : Step s s') (hs : s.1.Sound s.2.target) :
    s'.1.settings = s.1.settings ∧ s'.2.refuses = s.2.refuses := by
  cases h with
  | move hmoves => exact ⟨rfl, (hmoves.follows hs.registry).refuses⟩
  | note => exact ⟨rfl, rfl⟩
  | subscribe _ _ hr => exact ⟨rfl, hr⟩
  | unsubscribe _ _ _ hr => exact ⟨rfl, hr⟩

theorem Steps.same {s s' : Session × Link} (h : Steps s s') (hs : s.1.Sound s.2.target) :
    s'.1.settings = s.1.settings ∧ s'.2.refuses = s.2.refuses := by
  induction h with
  | refl => exact ⟨rfl, rfl⟩
  | tail hsteps hstep ih =>
    obtain ⟨hsettings, hr⟩ := hstep.same (Steps.sound hsteps hs)
    exact ⟨hsettings.trans ih.1, hr.trans ih.2⟩

/-- A target that answers afterwards has answered before. -/
theorem Step.reliable {s s' : Session × Link} (h : Step s s') (hs : s.1.Sound s.2.target)
    (hl : s'.2.Reliable) : s.2.Reliable := by
  cases h with
  | move hmoves => exact (hmoves.follows hs.registry).reliable hl
  | note => exact hl
  | subscribe _ htarget hr =>
    have hc := hl.connected
    rw [(Target.subscribeLoads_ok htarget).1] at hc
    exact hl.of_eq hc hr.symm
  | unsubscribe _ _ ht hr =>
    have hc := hl.connected
    rw [ht] at hc
    exact hl.of_eq hc hr.symm

theorem Step.agrees {s s' : Session × Link} (h : Step s s') (hs : s.1.Sound s.2.target)
    (hl : s'.2.Reliable) (ha : s.1.Agrees s.2.target) : s'.1.Agrees s'.2.target := by
  have hbefore := h.reliable hs hl
  cases h with
  | move hmoves =>
    refine ⟨Registry.Steps.agrees hmoves.steps hs.registry.toAccounted hl ha.registry, ?_⟩
    rw [(hmoves.follows hs.registry).subscriptions]
    exact ha.watched
  | note => exact ⟨ha.registry, ha.watched⟩
  | @subscribe s l l' id hfresh htarget =>
    obtain ⟨ht, -⟩ := Target.subscribeLoads_ok htarget
    have hnone : l.target.subscriptions = [] := by
      rw [ha.watched, hfresh]
      rfl
    refine ⟨ha.registry.of_same (by rw [ht]) (by rw [ht]), ?_⟩
    rw [ht]
    simp [hnone]
  | @unsubscribe s l l' id gone hid hpart ht _ hwhole =>
    have hreqs := ht ▸ hs.without_requests hid hpart
    have hone : l.target.subscriptions = [(id, "*")] := by
      rw [ha.watched, hid]
      rfl
    refine ⟨ha.registry.of_same hreqs (by rw [ht]; rfl), ?_⟩
    rw [ht, hwhole hbefore]
    simp [Target.without, hone]

theorem Steps.agrees {s s' : Session × Link} (h : Steps s s') (hs : s.1.Sound s.2.target)
    (hl : s'.2.Reliable) (ha : s.1.Agrees s.2.target) : s'.1.Agrees s'.2.target := by
  induction h with
  | refl => exact ha
  | tail hsteps hstep ih =>
    have hmid := Steps.sound hsteps hs
    exact hstep.agrees hmid hl (ih (hstep.reliable hmid hl))

/-! ### Operations -/

/-- What is done over the link takes the session through steps to the one that comes out. -/
def Proceeds (s : Session) {α : Type} (x : OverLink α) (out : α → Session) : Prop :=
  ∀ l, s.Sound l.target → Steps (s, l) (out (x l).1, (x l).2)

namespace Proceeds

variable {α β : Type} {x : OverLink α} {out : α → Session}

theorem pure {a : α} (h : ∃ handles, out a = { s with handles }) :
    Proceeds s (Pure.pure a) out := by
  obtain ⟨handles, h⟩ := h
  intro l _
  rw [OverLink.pure_run, h]
  exact .single (.note handles)

theorem bind {f : α → OverLink β} {out' : β → Session} (hx : Proceeds s x out)
    (hf : ∀ a, Proceeds (out a) (f a) out') : Proceeds s (x >>= f) out' := by
  intro l hs
  have hsteps := hx l hs
  rw [OverLink.bind_run]
  exact hsteps.trans (hf (x l).1 (x l).2 (hsteps.sound hs))

theorem quiet (hx : LeadsOver Link.Undisturbed x) : Proceeds s x fun _ => s :=
  fun l hs => .single (hs.undisturbed (hx l))

/-- What is done with the registry alone. -/
theorem act (act : Registry.Act) :
    Proceeds s (s.registry.perform act) fun registry => { s with registry } :=
  fun _ hs => .single (.move (Registry.step_moves hs.registry act))

end Proceeds

theorem register_proceeds (s : Session) (spec : BreakpointSpec) :
    Proceeds s (s.register spec) Prod.snd :=
  Proceeds.act (.register spec)

theorem remove_proceeds (s : Session) (id : BreakpointId) :
    Proceeds s (s.remove id) Prod.snd :=
  Proceeds.act (.remove id)

theorem setEnabled_proceeds (s : Session) (id : BreakpointId) (enabled : Bool) :
    Proceeds s (s.setEnabled id enabled) Prod.snd :=
  Proceeds.act (.setEnabled id enabled)

theorem onTypeLoaded_proceeds (s : Session) (type : TypeId) :
    Proceeds s (s.onTypeLoaded type) Prod.snd :=
  Proceeds.act (.onTypeLoaded type)

theorem rescan_proceeds (s : Session) : Proceeds s s.rescan Prod.snd :=
  Proceeds.act .rescan

theorem clear_proceeds (s : Session) : Proceeds s s.clear id :=
  Proceeds.act .clear

theorem decide_proceeds (s : Session) (request : RequestId) (thread : ThreadId) :
    Proceeds s (s.decide request thread) Prod.snd :=
  Proceeds.act (.decide s.settings.evaluation request thread)

theorem add_proceeds (s : Session) (spec : BreakpointSpec) :
    Proceeds s (s.add spec) Prod.snd := by
  have hsubscribe : Proceeds s s.watch.subscribe fun p => { s with watch := p.2 } := by
    intro l hs
    cases hfresh : s.watch.subscription with
    | some request =>
      simp only [LoadWatch.subscribe, hfresh]
      exact .refl
    | none =>
      simp only [LoadWatch.subscribe, hfresh, OverLink.bind_run, Remote.subscribeLoads,
        Link.order_outcome]
      cases hok : l.answer .subscribeLoads (·.subscribeLoads "*") with
      | error fault => exact .single (hs.undisturbed ⟨.refl _, rfl⟩)
      | ok answer => exact .single (.subscribe hfresh (Link.answer_ok hok) rfl)
  refine hsubscribe.bind fun p => ?_
  obtain ⟨_ | request, watch⟩ := p
  · exact .pure ⟨_, rfl⟩
  · exact register_proceeds _ spec

theorem unsubscribe_proceeds (s : Session) : Proceeds s s.unsubscribe id := by
  intro l hs
  cases hid : s.watch.subscription with
  | none =>
    have hwatch : s.watch = {} := by rw [← show LoadWatch.mk none = {} from rfl, ← hid]
    have hrun : s.unsubscribe l = (s, l) := by
      simp only [unsubscribe, LoadWatch.unsubscribe, hid]
      rw [← hwatch]
      rfl
    rw [hrun]
    exact .refl
  | some request =>
    obtain ⟨gone, hpart, ht, hr, hwhole⟩ :=
      Registry.deleteRequests_run hs.registry.target [request]
    have hrun : s.unsubscribe l =
        ({ s with watch := {} }, (Registry.deleteRequests [request] l).2) := by
      simp only [unsubscribe, LoadWatch.unsubscribe, hid]
      rfl
    rw [hrun]
    exact .single (.unsubscribe hid hpart ht hr hwhole)

theorem tryEvaluate_proceeds (s : Session) (thread : ThreadId) (frame : FrameId) (text : String) :
    Proceeds s (s.tryEvaluate thread frame text) Prod.snd := by
  have h := Link.undisturbed_lasting ⟨thread, frame, s.settings.evaluation⟩
  refine (Proceeds.quiet (h.evaluateText text h.describe)).bind fun r => ?_
  rcases r with e | ⟨v, shown, type⟩
  · refine .pure ?_
    unfold noteFailure
    split <;> exact ⟨_, rfl⟩
  · have hpresent : ∃ handles, (s.present v shown type).2 = { s with handles } := by
      unfold present
      split <;> exact ⟨_, rfl⟩
    exact .pure hpresent

theorem evaluate_proceeds (s : Session) (thread : ThreadId) (frame : FrameId) (text : String) :
    Proceeds s (s.evaluate thread frame text) Prod.snd := by
  refine (tryEvaluate_proceeds s thread frame text).bind fun p => ?_
  obtain ⟨_ | _, s'⟩ := p <;> exact .pure ⟨_, rfl⟩

theorem resume_proceeds (s : Session) (thread : ThreadId) :
    Proceeds s (s.resume thread) Prod.snd := by
  refine (Proceeds.quiet (Link.resume_undisturbed thread).outcome).bind fun r => ?_
  exact .pure ⟨_, rfl⟩

theorem handle_proceeds (s : Session) (event : Event) :
    Proceeds s (s.handle event) Prod.snd := by
  have hquiet (s : Session) (thread : ThreadId) (notices : List Notice) :
      Proceeds s (do resumeQuietly thread; return (some notices, s)) Prod.snd := by
    refine (Proceeds.quiet fun l => ?_).bind fun _ => .pure ⟨_, rfl⟩
    rw [resumeQuietly, OverLink.discard_run, Link.result?_run]
    exact (Link.resume_undisturbed thread).outcome l
  cases event with
  | typeLoaded type => exact (onTypeLoaded_proceeds s type).bind fun p => .pure ⟨_, rfl⟩
  | hit request thread location =>
    refine (decide_proceeds s request thread).bind fun p => ?_
    obtain ⟨_ | _ | _ | _, s'⟩ := p
    · exact .pure ⟨_, rfl⟩
    · exact .pure ⟨_, rfl⟩
    · exact hquiet s' thread _
    · exact hquiet s' thread _
  | step => exact .pure ⟨_, rfl⟩
  | exception => exact .pure ⟨_, rfl⟩
  | terminated => exact (clear_proceeds s).bind fun s' => .pure ⟨_, rfl⟩

theorem attend_proceeds (hearing : Hearing) (arrivals : List Arrival) (s : Session) :
    Proceeds s (s.attend hearing arrivals) Attendance.session := by
  induction arrivals generalizing hearing s with
  | nil => exact .pure ⟨_, rfl⟩
  | cons arrival rest ih =>
    rcases arrival with (event | count) | _ | _
    case closed | cancelled => exact .pure ⟨_, rfl⟩
    case delivery.missed => exact (rescan_proceeds s).bind fun p => ih hearing p.2
    case delivery.event =>
      refine (handle_proceeds s event).bind fun p => ?_
      obtain ⟨_ | notices, s'⟩ := p
      · exact .pure ⟨_, rfl⟩
      · dsimp only
        split
        · exact .pure ⟨_, rfl⟩
        · split
          · exact (unsubscribe_proceeds s').bind fun s'' => .pure ⟨_, rfl⟩
          · exact (ih _ s').bind fun p => .pure ⟨_, rfl⟩

/-! ### Runs -/

/-- What the user of a session does, what its target tells it, and what happens to the target in
between. -/
inductive Act where
  | add (spec : BreakpointSpec)
  | remove (id : BreakpointId)
  | setEnabled (id : BreakpointId) (enabled : Bool)
  | onTypeLoaded (type : TypeId)
  | rescan
  | decide (request : RequestId) (thread : ThreadId)
  | handle (event : Event)
  | attend (hearing : Hearing) (arrivals : List Arrival)
  | evaluate (thread : ThreadId) (frame : FrameId) (text : String)
  | resume (thread : ThreadId)
  | pin (handle : Handle)
  | unpin (handle : Handle)
  | change (change : Target.Change)

def perform (s : Session) : Act → OverLink Session
  | .add spec => do return (← s.add spec).2
  | .remove id => do return (← s.remove id).2
  | .setEnabled id enabled => do return (← s.setEnabled id enabled).2
  | .onTypeLoaded type => do return (← s.onTypeLoaded type).2
  | .rescan => do return (← s.rescan).2
  | .decide request thread => do return (← s.decide request thread).2
  | .handle event => do return (← s.handle event).2
  | .attend hearing arrivals => do return (← s.attend hearing arrivals).session
  | .evaluate thread frame text => do return (← s.evaluate thread frame text).2
  | .resume thread => do return (← s.resume thread).2
  | .pin handle => return s.pin handle
  | .unpin handle => return s.unpin handle
  | .change c => fun l => (s, { l with target := c.apply l.target })

def step (s : Session × Link) (act : Act) : Session × Link :=
  s.1.perform act s.2

def run (acts : List Act) (s : Session × Link) : Session × Link :=
  acts.foldl step s

/-- A new session on a new target, whose calls may be refused. -/
def connect (settings : Settings) (refuses : Nat → Call → Option Fault) : Session × Link :=
  (start settings, { target := .start, refuses })

theorem connect_sound (settings : Settings) (refuses : Nat → Call → Option Fault) :
    (connect settings refuses).1.Sound (connect settings refuses).2.target := by
  refine ⟨Registry.start_sound settings.breakpoints refuses, rfl, ?_⟩
  rintro _ ⟨⟩

theorem connect_agrees (settings : Settings) (refuses : Nat → Call → Option Fault) :
    (connect settings refuses).1.Agrees (connect settings refuses).2.target := by
  have hnone : Target.start.requests = [] := rfl
  refine ⟨fun q hq => ?_, rfl⟩
  rw [show (connect settings refuses).2.target.requests = [] from hnone] at hq
  contradiction

theorem step_steps {s : Session × Link} (h : s.1.Sound s.2.target) (act : Act) :
    Steps s (step s act) := by
  obtain ⟨s, l⟩ := s
  cases act with
  | add spec => exact add_proceeds s spec l h
  | remove id => exact remove_proceeds s id l h
  | setEnabled id enabled => exact setEnabled_proceeds s id enabled l h
  | onTypeLoaded type => exact onTypeLoaded_proceeds s type l h
  | rescan => exact rescan_proceeds s l h
  | decide request thread => exact decide_proceeds s request thread l h
  | handle event => exact handle_proceeds s event l h
  | attend hearing arrivals => exact attend_proceeds hearing arrivals s l h
  | evaluate thread frame text => exact evaluate_proceeds s thread frame text l h
  | resume thread => exact resume_proceeds s thread l h
  | pin handle => exact .single (.note (s.handles.pin handle))
  | unpin handle => exact .single (.note (s.handles.unpin handle))
  | change c => exact .single (h.undisturbed ⟨Target.Change.evolves l.target c, rfl⟩)

theorem run_steps {s : Session × Link} (h : s.1.Sound s.2.target) (acts : List Act) :
    Steps s (run acts s) := by
  induction acts generalizing s with
  | nil => exact .refl
  | cons act acts ih =>
    have hsteps := step_steps h act
    exact hsteps.trans (ih (hsteps.sound h))

end Session

end Debugger
