import Debugger.Proofs.Handles
import Debugger.Proofs.HitLog

/-!
What is left of a session when its loop is over. The end of the target that an event reports is
followed by the whole of the cleanup, the end of the channel by none of it.
-/

namespace Debugger

/-! ### Handles -/

namespace Handles

/-- Every live handle is pinned or in the queue. Unlike `Consistent`, this needs no free number. -/
def Shelved (hs : Handles) : Prop :=
  ∀ e ∈ hs.entries, e.handle ∈ hs.pinned ∨ e.handle ∈ hs.queue

theorem mem_forget {hs : Handles} {h : Handle} {e : Tracked} (he : e ∈ (hs.forget h).entries) :
    e ∈ hs.entries ∧ e.handle ≠ h := by
  unfold forget at he
  split at he
  · rename_i hnone
    refine ⟨he, ?_⟩
    simpa using List.find?_eq_none.mp hnone e he
  · simpa using he

theorem mem_forgetAll {hs : Handles} {gone : List Handle} {e : Tracked}
    (he : e ∈ (hs.forgetAll gone).entries) : e ∈ hs.entries ∧ e.handle ∉ gone := by
  induction gone generalizing hs with
  | nil => exact ⟨he, List.not_mem_nil⟩
  | cons h gone ih =>
    obtain ⟨hlater, hrest⟩ := ih he
    obtain ⟨hm, hne⟩ := mem_forget hlater
    exact ⟨hm, List.not_mem_cons_of_ne_of_not_mem hne hrest⟩

theorem forgetAll_pinned (hs : Handles) (gone : List Handle) :
    (hs.forgetAll gone).pinned = hs.pinned := by
  induction gone generalizing hs with
  | nil => rfl
  | cons h gone ih =>
    refine (ih (hs.forget h)).trans ?_
    unfold forget
    split <;> rfl

namespace Shelved

variable {hs : Handles} (h : hs.Shelved)

include h

theorem adjust (handle : Handle) {f : Tracked → Tracked} (hf : ∀ e, (f e).handle = e.handle) :
    (hs.adjust handle f).Shelved := by
  intro e he
  obtain ⟨d, hd, rfl⟩ := List.mem_map.mp he
  have hsame : (if d.handle = handle then f d else d).handle = d.handle := by
    split
    · exact hf d
    · rfl
  rw [hsame]
  exact h d hd

/-- What leaves the queue unpinned is forgotten. -/
theorem evict : hs.evict.Shelved := by
  intro e he
  obtain ⟨hm, hno⟩ := mem_forgetAll he
  have hpinned : hs.evict.pinned = hs.pinned := forgetAll_pinned _ _
  rw [hpinned]
  cases h e hm with
  | inl hp => exact .inl hp
  | inr hq =>
    rw [← List.take_append_drop (hs.queue.length - hs.limit) hs.queue, List.mem_append] at hq
    cases hq with
    | inl hfront =>
      by_contra hne
      apply hno
      simp only [List.mem_filter, Bool.not_eq_true', isPinned_eq_false]
      exact ⟨hfront, fun hp => hne (.inl hp)⟩
    | inr hback => exact .inr hback

theorem track (object : ObjectId) (type : String) : (hs.track object type).2.Shelved := by
  unfold Handles.track
  split
  · exact h.adjust _ fun _ => rfl
  · apply evict
    intro e he
    cases List.mem_append.mp he with
    | inl hold => exact (h e hold).imp_right (List.mem_append_left _)
    | inr hnew =>
      obtain rfl := List.mem_singleton.mp hnew
      exact .inr (List.mem_append_right _ List.mem_cons_self)

theorem markInvalid (object : ObjectId) : (hs.markInvalid object).Shelved := by
  unfold Handles.markInvalid
  split
  · exact h.adjust _ fun _ => rfl
  · exact h

theorem pin (handle : Handle) : (hs.pin handle).Shelved := by
  unfold Handles.pin
  split
  · intro e he
    by_cases hm : e.handle = handle
    · exact .inl (hm ▸ List.mem_append_right _ List.mem_cons_self)
    · refine (h e he).imp (List.mem_append_left _) fun hq => ?_
      simp [hq, hm]
  · exact h

theorem unpin (handle : Handle) : (hs.unpin handle).Shelved := by
  unfold Handles.unpin
  split
  · dsimp only
    split
    · apply evict
      intro e he
      by_cases hm : e.handle = handle
      · exact .inr (hm ▸ List.mem_append_right _ List.mem_cons_self)
      · refine (h e he).imp (fun hp => ?_) (List.mem_append_left _)
        simp [hp, hm]
    · rename_i hdead
      intro e he
      refine (h e he).imp_left fun hp => ?_
      have hm : e.handle ≠ handle := by
        intro heq
        apply hdead
        rw [isLive_iff, ← heq]
        exact List.mem_map_of_mem he
      simp [hp, hm]
  · exact h

/-- Of what is live after a cleanup everything is pinned. -/
theorem pinned_of_clearUnpinned {e : Tracked} (he : e ∈ hs.clearUnpinned.entries) :
    e.handle ∈ hs.clearUnpinned.pinned := by
  obtain ⟨hm, hno⟩ := mem_forgetAll he
  have hpinned : hs.clearUnpinned.pinned = hs.pinned := forgetAll_pinned _ _
  rw [hpinned]
  exact (h e hm).resolve_right hno

theorem clearUnpinned : hs.clearUnpinned.Shelved :=
  fun _ he => .inl (h.pinned_of_clearUnpinned he)

theorem perform (act : Act) : (hs.perform act).Shelved := by
  cases act with
  | track object type => exact h.track object type
  | pin handle => exact h.pin handle
  | unpin handle => exact h.unpin handle
  | markInvalid object => exact h.markInvalid object
  | clearUnpinned => exact h.clearUnpinned

theorem run (acts : List Act) : (Handles.run acts hs).Shelved := by
  induction acts generalizing hs with
  | nil => exact h
  | cons act acts ih => exact ih (h.perform act)

theorem object?_clearUnpinned {handle : Handle} (hno : handle ∉ hs.clearUnpinned.pinned) :
    hs.clearUnpinned.object? handle = none := by
  rw [object?, Option.map_eq_none_iff]
  refine List.find?_eq_none.mpr fun e he heq => hno ?_
  have hhandle : e.handle = handle := by simpa using heq
  exact hhandle ▸ h.pinned_of_clearUnpinned he

end Shelved

end Handles

/-! ### Handles of a session -/

namespace Session

/-- The table of handles has only been used by its own operations. -/
def Handled (s s' : Session) : Prop :=
  ∃ acts, s'.handles = s.handles.run acts

theorem Handled.of_eq {s s' : Session} (h : s'.handles = s.handles) : Handled s s' :=
  ⟨[], h⟩

theorem Handled.of_perform {s s' : Session} (act : Handles.Act)
    (h : s'.handles = s.handles.perform act) : Handled s s' :=
  ⟨[act], h⟩

theorem Handled.trans {s s' s'' : Session} (h : Handled s s') (h' : Handled s' s'') :
    Handled s s'' := by
  obtain ⟨acts, h⟩ := h
  obtain ⟨more, h'⟩ := h'
  exact ⟨acts ++ more, by rw [h', h, Handles.run_append]⟩

theorem Handled.shelved {s s' : Session} (h : Handled s s') (hs : s.handles.Shelved) :
    s'.handles.Shelved := by
  obtain ⟨acts, h⟩ := h
  rw [h]
  exact hs.run acts

theorem serial_handled : Serial fun s _ s' => Handled s.1 s'.1 :=
  ⟨fun _ => .of_eq rfl, .trans⟩

theorem handle_handles (s : Session × Link) (event : Event) :
    (step s (.handle event)).1.handles =
      if event = .terminated then s.1.handles.clearUnpinned else s.1.handles := by
  cases event with
  | hit request thread location =>
    simp only [step, perform, Session.handle, OverLink.bind_run]
    generalize hout : s.1.decide request thread s.2 = out
    have hdecide : out.1.2.handles = s.1.handles := by rw [← hout]; rfl
    obtain ⟨⟨_ | _ | _ | _, s'⟩, l'⟩ := out <;> exact hdecide
  | typeLoaded | step | exception | terminated => rfl

theorem handle_handled (s : Session × Link) (event : Event) :
    Handled s.1 (step s (.handle event)).1 := by
  have hsame := handle_handles s event
  split at hsame
  · exact .of_perform .clearUnpinned hsame
  · exact .of_eq hsame

/-- The table of handles has been used at most once. -/
def Touched (s s' : Session) : Prop :=
  s'.handles = s.handles ∨ ∃ act, s'.handles = s.handles.perform act

theorem Touched.handled {s s' : Session} (h : Touched s s') : Handled s s' := by
  obtain h | ⟨act, h⟩ := h
  · exact .of_eq h
  · exact .of_perform act h

theorem tryEvaluate_touched (s : Session) (thread : ThreadId) (frame : FrameId) (text : String)
    (l : Link) : Touched s (s.tryEvaluate thread frame text l).1.2 := by
  simp only [tryEvaluate, OverLink.bind_run]
  generalize Scope.evaluateText _ text _ l = out
  obtain ⟨e | ⟨v, shown, type⟩, l'⟩ := out
  · change Touched s (s.noteFailure e)
    unfold noteFailure
    split
    · exact .inr ⟨.markInvalid _, rfl⟩
    · exact .inl rfl
  · change Touched s (s.present v shown type).2
    unfold present
    split
    · exact .inr ⟨.track _ type, rfl⟩
    · exact .inr ⟨.track _ type, rfl⟩
    · exact .inl rfl

theorem step_touched (s : Session × Link) {act : Act}
    (hattend : ∀ hearing arrivals, act ≠ .attend hearing arrivals) :
    Touched s.1 (step s act).1 := by
  cases act with
  | attend hearing arrivals => exact absurd rfl (hattend hearing arrivals)
  | add spec =>
    refine .inl ?_
    simp only [step, perform, Session.add, OverLink.bind_run]
    generalize s.1.watch.subscribe s.2 = out
    obtain ⟨⟨_ | _, watch⟩, l'⟩ := out <;> rfl
  | handle event =>
    have hsame := handle_handles s event
    split at hsame
    · exact .inr ⟨.clearUnpinned, hsame⟩
    · exact .inl hsame
  | evaluate thread frame text =>
    have htouched := tryEvaluate_touched s.1 thread frame text s.2
    simp only [step, perform, Session.evaluate, OverLink.bind_run]
    generalize s.1.tryEvaluate thread frame text s.2 = out at htouched
    obtain ⟨⟨_ | _, s'⟩, l'⟩ := out <;> exact htouched
  | resume thread => exact .inr ⟨.clearUnpinned, rfl⟩
  | pin handle => exact .inr ⟨.pin handle, rfl⟩
  | unpin handle => exact .inr ⟨.unpin handle, rfl⟩
  | remove | setEnabled | onTypeLoaded | rescan | decide | change => exact .inl rfl

theorem step_handled (s : Session × Link) (act : Act) : Handled s.1 (step s act).1 := by
  by_cases hattend : ∃ hearing arrivals, act = .attend hearing arrivals
  · obtain ⟨hearing, arrivals, rfl⟩ := hattend
    exact serial_handled.attend handle_handled (fun _ => .of_eq rfl) fun _ _ => .of_eq rfl
  · refine (step_touched s fun hearing arrivals h => ?_).handled
    exact hattend ⟨hearing, arrivals, h⟩

theorem run_shelved (settings : Settings) (refuses : Nat → Call → Option Fault)
    (acts : List Act) : (run acts (connect settings refuses)).1.handles.Shelved := by
  have hstart : (connect settings refuses).1.handles.Shelved :=
    fun e he => absurd he List.not_mem_nil
  exact (serial_handled.run (fun act _ s => step_handled s act) _).shelved hstart

/-! ### The loop -/

/-- The session has no breakpoint, waits for no type, owns no request and hears of no load. Of its
handles only the pinned ones can be looked up. -/
structure TornDown (s : Session) : Prop where
  breakpoints : s.registry.breakpoints = []
  pendingLines : s.registry.pendingLines = []
  pendingTypes : s.registry.pendingTypes = []
  owners : s.registry.owners = []
  handles : ∀ h, s.handles.isPinned h = false → s.object? h = none
  watch : s.watch.isSubscribed = false

@[simp]
theorem unsubscribe_run (s : Session) (l : Link) :
    (s.unsubscribe l).1 = { s with watch := {} } := by
  unfold unsubscribe LoadWatch.unsubscribe
  cases s.watch.subscription with
  | none => rfl
  | some request => rfl

/-- The cleanup after the event that reports the end of the target is whole, whether or not the
calls it makes are refused. -/
theorem handle_terminated {s : Session} (h : s.handles.Shelved) (l l' : Link) :
    TornDown ((s.handle .terminated l).1.2.unsubscribe l').1 := by
  rw [unsubscribe_run]
  refine ⟨rfl, rfl, rfl, rfl, fun handle hno => ?_, rfl⟩
  have hnone : s.handles.clearUnpinned.object? handle = none :=
    h.object?_clearUnpinned (Handles.isPinned_eq_false.mp hno)
  change (if s.handles.clearUnpinned.isInvalid handle then none
    else s.handles.clearUnpinned.object? handle) = none
  rw [hnone, ite_self]

/-- No other event makes a session tell that the target ended. -/
theorem terminated_not_mem {s s' : Session} {event : Event} (hevent : event ≠ .terminated)
    {l l' : Link} {notices : List Notice} (h : s.handle event l = ((some notices, s'), l')) :
    .terminated ∉ notices := by
  cases event with
  | terminated => contradiction
  | hit request thread location =>
    have htold := congrArg (·.1.1) h
    simp only [handle_hit] at htold
    obtain ⟨decision, -, rfl⟩ := Option.map_eq_some_iff.mp htold
    cases decision <;> simp [Decision.notices]
  | typeLoaded | step | exception =>
    cases h
    simp

/-- Of one event there is at most one thing to tell. -/
theorem handle_length {s s' : Session} {event : Event} {l l' : Link} {notices : List Notice}
    (h : s.handle event l = ((some notices, s'), l')) : notices.length ≤ 1 := by
  cases event with
  | hit request thread location =>
    have htold := congrArg (·.1.1) h
    simp only [handle_hit] at htold
    obtain ⟨decision, -, rfl⟩ := Option.map_eq_some_iff.mp htold
    cases decision <;> simp [Decision.notices]
  | typeLoaded | step | exception | terminated =>
    cases h
    simp

/-- The loop after an event that it does not get done with. -/
theorem attend_stuck {s s' : Session} {event : Event} {l l' : Link}
    (h : s.handle event l = ((none, s'), l')) (hearing : Hearing) (rest : List Arrival) :
    s.attend hearing (.delivery (.event event) :: rest) l = (⟨[], s', some .stuck⟩, l') := by
  simp only [attend, OverLink.bind_run, h]
  rfl

section Handled

variable {s s' : Session} {event : Event} {l l' : Link} {notices : List Notice}
  (h : s.handle event l = ((some notices, s'), l')) {hearing : Hearing} (rest : List Arrival)

include h

/-- The loop after an event of which nobody takes what there is to tell. -/
theorem attend_unheard (hunheard : hearing.hears notices = false) :
    s.attend hearing (.delivery (.event event) :: rest) l = (⟨[], s', some .unheard⟩, l') := by
  have hnone : hearing.heard notices = [] := by
    cases hearing with
    | none => contradiction
    | some n =>
      have hone := handle_length h
      have hfew : n < notices.length := by simpa [Hearing.hears] using hunheard
      rw [Hearing.heard, show n = 0 by omega, List.take_zero]
  simp only [attend, OverLink.bind_run, h, hunheard, hnone]
  rfl

/-- The loop after the event that reports the end of the target. -/
theorem attend_terminated (hheard : hearing.hears notices = true) (hevent : event = .terminated) :
    s.attend hearing (.delivery (.event event) :: rest) l =
      (⟨notices, (s'.unsubscribe l').1, some .terminated⟩, (s'.unsubscribe l').2) := by
  subst hevent
  simp only [attend, OverLink.bind_run, h, hheard]
  rfl

/-- How the loop goes on after an event that does not end it. -/
theorem attend_event (hheard : hearing.hears notices = true) (hevent : event ≠ .terminated) :
    s.attend hearing (.delivery (.event event) :: rest) l =
      let more := s'.attend (hearing.after notices) rest l'
      ({ more.1 with notices := notices ++ more.1.notices }, more.2) := by
  simp only [attend, OverLink.bind_run, h, hheard, hevent]
  rfl

end Handled

/-- The loop ended in one of two ways: with the event that reports the end of the target, and then
nothing is left; or at the end of the channel, with all that was left after what came before it. -/
def EndsTold (s : Session) (hearing : Hearing) (arrivals : List Arrival) (l : Link) : Prop :=
  let out := (s.attend hearing arrivals l).1
  (out.ended = some .terminated ∧ out.session.TornDown) ∨
    (out.ended = some .closed ∧ ∃ before rest, arrivals = before ++ .closed :: rest ∧
      (s.attend hearing before l).1.ended = none ∧
      out.session = (s.attend hearing before l).1.session)

theorem attend_endsTold {s : Session} (h : s.handles.Shelved) {hearing : Hearing}
    {arrivals : List Arrival} {l : Link}
    (htold : .terminated ∈ (s.attend hearing arrivals l).1.notices) :
    s.EndsTold hearing arrivals l := by
  induction arrivals generalizing s hearing l with
  | nil => cases htold
  | cons arrival rest ih =>
    rcases arrival with (event | count) | _ | _
    case cancelled => cases htold
    case closed => exact .inr ⟨rfl, [], rest, rfl, rfl, rfl⟩
    case delivery.missed =>
      have hlater : (s.rescan l).1.2.handles.Shelved := h
      obtain hended | ⟨hended, before, after, rfl, hwaits, hsame⟩ := ih hlater htold
      · exact .inl hended
      · exact .inr ⟨hended, .delivery (.missed count) :: before, after, rfl, hwaits, hsame⟩
    case delivery.event =>
      have hlater : (s.handle event l).1.2.handles.Shelved :=
        (handle_handled (s, l) event).shelved h
      rcases hout : s.handle event l with ⟨⟨_ | notices, s'⟩, l'⟩
      · rw [attend_stuck hout] at htold
        cases htold
      rw [hout] at hlater
      cases hheard : hearing.hears notices with
      | false =>
        rw [attend_unheard hout rest hheard] at htold
        cases htold
      | true =>
        by_cases hevent : event = .terminated
        · have hdown := handle_terminated h l l'
          rw [← hevent, hout] at hdown
          rw [EndsTold, attend_terminated hout rest hheard hevent]
          exact .inl ⟨rfl, hdown⟩
        · have hnot := terminated_not_mem hevent hout
          rw [attend_event hout rest hheard hevent] at htold
          have hmore := (List.mem_append.mp htold).resolve_left hnot
          obtain ⟨hended, hdown⟩ | ⟨hended, before, after, rfl, hwaits, hsame⟩ := ih hlater hmore
          · simp only [EndsTold, attend_event hout rest hheard hevent]
            exact .inl ⟨hended, hdown⟩
          · refine .inr ?_
            rw [attend_event hout _ hheard hevent]
            refine ⟨hended, .delivery (.event event) :: before, after, rfl, ?_, ?_⟩
            · rw [attend_event hout _ hheard hevent]
              exact hwaits
            · rw [attend_event hout _ hheard hevent]
              exact hsame

/-- Whatever state a session is in, whatever arrives, and however long somebody listens: a loop that
tells that the target ended is over, and if an event reported that end, then the session has no
breakpoint, no entry that waits and no request left, none of its handles but the pinned ones can be
looked up, and it is not subscribed any more. A loop that only saw its channel end has cleaned up
nothing. -/
theorem termination_told (settings : Settings) (refuses : Nat → Call → Option Fault)
    (acts : List Act) (hearing : Hearing) (arrivals : List Arrival) {s : Session} {l : Link}
    (hs : run acts (connect settings refuses) = (s, l))
    (htold : .terminated ∈ (s.attend hearing arrivals l).1.notices) :
    s.EndsTold hearing arrivals l := by
  have hshelved := run_shelved settings refuses acts
  rw [hs] at hshelved
  exact attend_endsTold hshelved htold

/-- A session with a breakpoint that waits for its type. -/
def waitingForType : List Act :=
  [.add { site := .line "B.kt" 3 }]

theorem termination_told_by_event :
    ∃ s l, run waitingForType (connect {} fun _ _ => none) = (s, l) ∧
      s.registry.breakpoints ≠ [] ∧
      .terminated ∈ (s.attend none [.delivery (.event .terminated)] l).1.notices ∧
      s.EndsTold none [.delivery (.event .terminated)] l := by
  obtain ⟨s, l, hs⟩ : ∃ s l, run waitingForType (connect {} fun _ _ => none) = (s, l) :=
    ⟨_, _, rfl⟩
  have hleft : (run waitingForType (connect {} fun _ _ => none)).1.registry.breakpoints ≠ [] := by
    decide +kernel
  have htold : .terminated ∈
      (s.attend none [.delivery (.event .terminated)] l).1.notices := List.mem_cons_self
  rw [hs] at hleft
  exact ⟨s, l, hs, hleft, htold, termination_told {} (fun _ _ => none) waitingForType none _ hs
    htold⟩

/-- Where the channel ends without that event, the breakpoint still waits and the session is still
subscribed. -/
theorem termination_told_by_closure :
    let s := run waitingForType (connect {} fun _ _ => none)
    let out := (s.1.attend none [.closed] s.2).1
    out.notices = [.terminated] ∧ out.ended = some .closed ∧
      out.session.registry.breakpoints ≠ [] ∧ out.session.registry.pendingLines ≠ [] ∧
      out.session.watch.isSubscribed = true ∧ ¬ out.session.TornDown := by
  intro s out
  have hleft : out.session.registry.breakpoints ≠ [] := by decide +kernel
  refine ⟨by decide +kernel, by decide +kernel, hleft, by decide +kernel, by decide +kernel, ?_⟩
  intro h
  exact hleft h.breakpoints

end Session

end Debugger
