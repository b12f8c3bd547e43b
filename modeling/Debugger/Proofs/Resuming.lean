import Debugger.Proofs.Teardown

/-!
Resuming a thread that cannot be resumed. The target stays as it was, but handles that are not
pinned were forgotten before it was asked.
-/

namespace Debugger

namespace Handles

variable {hs : Handles}

/-- A cleanup keeps of every pinned handle all that is known of it, and of no other one anything. -/
theorem Filed.find?_clearUnpinned (hf : hs.Filed) (h : Handle) :
    hs.clearUnpinned.find? h = if hs.isPinned h then hs.find? h else none := by
  have hcleared : hs.clearUnpinned.find? h = if h ∈ hs.queue then none else hs.find? h := by
    rw [clearUnpinned, hf.forgetAll_eq]
    exact find?_without hs hs.queue h
  rw [hcleared]
  by_cases hpinned : h ∈ hs.pinned
  · have hqueue : h ∉ hs.queue := fun hm => hf.not_pinned hm hpinned
    rw [if_neg hqueue, if_pos (isPinned_iff.mpr hpinned)]
  · rw [isPinned_eq_false.mpr hpinned]
    by_cases hqueue : h ∈ hs.queue
    · rw [if_pos hqueue]
      rfl
    · rw [if_neg hqueue]
      have hdead : h ∉ hs.entries.map (·.handle) := fun hm =>
        (List.mem_append.mp (hf.filed.symm.subset hm)).elim hpinned hqueue
      rw [← isLive_iff, isLive, Bool.not_eq_true, Option.isSome_eq_false_iff,
        Option.isNone_iff_eq_none] at hdead
      exact hdead

end Handles

namespace Session

/-! ### The table of handles over a run -/

/-- There is a free number for a handle in every state of the run. -/
def Roomy (acts : List Act) (s : Session × Link) : Prop :=
  ∀ before, before <+: acts → (run before s).1.handles.size < 4294967295

theorem Roomy.head {acts : List Act} {s : Session × Link} (h : Roomy acts s) :
    s.1.handles.size < 4294967295 :=
  h [] List.nil_prefix

theorem Roomy.tail {act : Act} {acts : List Act} {s : Session × Link}
    (h : Roomy (act :: acts) s) : Roomy acts (step s act) :=
  fun before hbefore => h (act :: before) (List.cons_prefix_cons.mpr ⟨rfl, hbefore⟩)

/-- What keeps the table of handles consistent, without taking a number. -/
theorem serial_consistent :
    Serial fun s _ s' => s.1.handles.Consistent → s'.1.handles.Consistent :=
  ⟨fun _ hc => hc, fun h h' hc => h' (h hc)⟩

theorem handle_consistent (s : Session × Link) (event : Event) (hc : s.1.handles.Consistent) :
    (step s (.handle event)).1.handles.Consistent := by
  rw [handle_handles]
  split
  · exact hc.clearUnpinned
  · exact hc

theorem Touched.consistent {s s' : Session} (h : Touched s s') (hc : s.handles.Consistent)
    (hroom : s.handles.size < 4294967295) : s'.handles.Consistent := by
  obtain h | ⟨act, h⟩ := h
  · exact h ▸ hc
  · exact h ▸ hc.perform hroom act

theorem step_consistent {s : Session × Link} (hc : s.1.handles.Consistent)
    (hroom : s.1.handles.size < 4294967295) (act : Act) : (step s act).1.handles.Consistent := by
  by_cases hattend : ∃ hearing arrivals, act = .attend hearing arrivals
  · obtain ⟨hearing, arrivals, rfl⟩ := hattend
    exact serial_consistent.attend handle_consistent (fun _ hc => hc)
      (fun s l hc => by rwa [unsubscribe_run]) hc
  · refine (step_touched s fun hearing arrivals h => ?_).consistent hc hroom
    exact hattend ⟨hearing, arrivals, h⟩

theorem run_handles_consistent {acts : List Act} {s : Session × Link}
    (hc : s.1.handles.Consistent) (hroom : Roomy acts s) :
    (run acts s).1.handles.Consistent := by
  induction acts generalizing s with
  | nil => exact hc
  | cons act acts ih => exact ih (step_consistent hc hroom.head act) hroom.tail

/-! ### Failed calls -/

/-- A call that fails leaves the target alone. -/
theorem resume_error {s : Session} {l : Link} {thread : ThreadId} {e : SessionError}
    (h : (s.resume thread l).1.1 = .error e) : (s.resume thread l).2.target = l.target := by
  simp only [resume, OverLink.bind_run, Remote.resume, Link.orderOnly_outcome] at h ⊢
  cases hanswer : l.answer .resume (·.resume thread) with
  | ok t =>
    rw [hanswer] at h
    contradiction
  | error fault => rfl

/-- What is looked up after a cleanup is what was looked up before, as far as it is pinned. -/
theorem object?_resume {s : Session} (hf : s.handles.Filed) (thread : ThreadId) (l : Link)
    (h : Handle) : (s.resume thread l).1.2.object? h =
      if s.handles.isPinned h then s.object? h else none := by
  change (if s.handles.clearUnpinned.isInvalid h then none
    else s.handles.clearUnpinned.object? h) = _
  simp only [Session.object?, Handles.isInvalid, Handles.object?, hf.find?_clearUnpinned]
  split
  · rfl
  · rfl

/-- Whatever a session has done and whichever calls fail: a thread that cannot be resumed leaves the
target as it was, and the session but for its handles. Of these the pinned ones denote what they
did, the others nothing. -/
theorem resume_failed (settings : Settings) (refuses : Nat → Call → Option Fault)
    {acts : List Act} (hroom : Roomy acts (connect settings refuses)) {s : Session} {l : Link}
    (hs : run acts (connect settings refuses) = (s, l)) {thread : ThreadId} {e : SessionError}
    (hfail : (s.resume thread l).1.1 = .error e) :
    (s.resume thread l).2.target = l.target ∧
      (s.resume thread l).1.2 = { s with handles := s.handles.clearUnpinned } ∧
      ∀ h, (s.resume thread l).1.2.object? h =
        if s.handles.isPinned h then s.object? h else none := by
  have hc : s.handles.Consistent := by
    have hrun := run_handles_consistent (Handles.consistent_empty _ (by decide)) hroom
    rwa [hs] at hrun
  exact ⟨resume_error hfail, rfl, object?_resume hc.toFiled thread l⟩

/-- Two objects are shown, of which one is pinned. -/
def showTwo : List Act := [.change (.define { name := "a.B" } true), .change (.newObject 5 []),
  .change (.newObject 5 []), .change .addThread, .change (.pushFrame 8 5 (some 6) 1 []),
  .change (.pushFrame 8 5 (some 7) 1 []), .evaluate 8 9 "this", .evaluate 8 10 "this", .pin ⟨1⟩]

/-- The thread is unknown. The pinned handle still denotes its object. -/
theorem resume_failed_pinned :
    Roomy showTwo (connect {} fun _ _ => none) ∧
      ∃ s l, run showTwo (connect {} fun _ _ => none) = (s, l) ∧
        (s.resume 99 l).1.1 = .error (.remote (.invalidThread 99)) ∧
        (s.resume 99 l).2.target = l.target ∧ (s.resume 99 l).1.2.object? ⟨1⟩ = some 6 := by
  have hroom : Roomy showTwo (connect {} fun _ _ => none) := by
    have hall : ∀ before ∈ showTwo.inits,
        (run before (connect {} fun _ _ => none)).1.handles.size < 4294967295 := by
      decide +kernel
    exact fun before hbefore => hall before ((List.mem_inits before showTwo).mpr hbefore)
  obtain ⟨s, l, hs⟩ : ∃ s l, run showTwo (connect {} fun _ _ => none) = (s, l) := ⟨_, _, rfl⟩
  have hstate : let s := run showTwo (connect {} fun _ _ => none)
      (s.1.resume 99 s.2).1.1 = .error (.remote (.invalidThread 99)) ∧
        s.1.handles.isPinned ⟨1⟩ = true ∧ s.1.object? ⟨1⟩ = some 6 := by
    decide +kernel
  rw [hs] at hstate
  obtain ⟨hfail, hpinned, hobject⟩ := hstate
  obtain ⟨htarget, -, hhandles⟩ := resume_failed {} (fun _ _ => none) hroom hs hfail
  refine ⟨hroom, s, l, hs, hfail, htarget, ?_⟩
  rw [hhandles, if_pos hpinned, hobject]

/-- The handle that is not pinned denotes an object, until that thread is to be resumed. -/
theorem resume_failed_unpinned :
    let s := run showTwo (connect {} fun _ _ => none)
    (s.1.resume 99 s.2).1.1 = .error (.remote (.invalidThread 99)) ∧
      s.1.object? ⟨2⟩ = some 7 ∧ (s.1.resume 99 s.2).1.2.object? ⟨2⟩ = none := by
  decide +kernel

end Session

end Debugger
