import Debugger.Proofs.Runs

/-!
Removal is final: once a breakpoint is removed, nothing that happens brings it back, even if the
target keeps its requests.
-/

namespace Debugger

namespace Registry

/-- The act forgets the breakpoint of the id, if there is one. -/
def Act.Removes (s : Registry × Link) (id : BreakpointId) : Act → Prop
  | .remove i => i = id
  | .clear => ∃ b, s.1.find? id = some b
  | _ => False

/-- The registry neither has a breakpoint of the id nor reports one. -/
structure Gone (s : Registry × Link) (id : BreakpointId) : Prop where
  find : s.1.find? id = none
  lines : ∀ p ∈ s.1.pendingLines, p.id ≠ id
  types : ∀ w ∈ s.1.pendingTypes, w.2 ≠ id
  loaded : ∀ type, id ∉ (s.1.onTypeLoaded type s.2).1.1
  rescanned : id ∉ (s.1.rescan s.2).1.1
  switched : ∀ enabled, (s.1.setEnabled id enabled s.2).1.1 = .error (.unknownBreakpoint id)
  owner : ∀ request, s.1.owner? request ≠ some id

theorem Sound.gone {s : Registry × Link} (h : s.1.Sound s.2.target) {id : BreakpointId}
    (hno : ∀ b ∈ s.1.breakpoints, b.id ≠ id) : Gone s id := by
  obtain ⟨r, l⟩ := s
  have hsites : ¬ ∃ site, (id, site) ∈ r.sites := by
    rintro ⟨site, hm⟩
    obtain ⟨b, hb, hid, -⟩ := mem_sites.mp hm
    exact hno b hb hid
  have hfind : r.find? id = none := Accounted.find?_eq_none.mpr hno
  refine ⟨hfind, ?_, ?_, ?_, ?_, ?_, ?_⟩
  · intro p hp he
    rw [h.lines] at hp
    obtain ⟨b, hb, hid, -⟩ := mem_waitingLines.mp hp
    exact hno b hb (hid.trans he)
  · rintro ⟨type, i⟩ hw he
    rw [h.types] at hw
    obtain ⟨b, hb, hid, -⟩ := mem_waitingTypes.mp hw
    exact hno b hb (hid.trans he)
  · intro type hm
    obtain ⟨ids, r', l', hrun, hloads, -⟩ := onTypeLoaded_run h type
    dsimp only at hm
    rw [hrun] at hm
    exact hsites (hloads.known id hm)
  · intro hm
    obtain ⟨ids, r', l', hrun, hloads, -⟩ := rescan_run h
    dsimp only at hm
    rw [hrun] at hm
    exact hsites (hloads.known id hm)
  · intro enabled
    simp only [setEnabled, hfind]
    rfl
  · intro request ho
    obtain ⟨b, hb, hid, -⟩ := h.owner?_eq_some.mp ho
    exact hno b hb hid

/-- A removal leaves no breakpoint of its id. -/
theorem step_removes {s : Registry × Link} (h : s.1.Sound s.2.target) {act : Act}
    {id : BreakpointId} (hact : act.Removes s id) :
    ∀ b ∈ (step s act).1.breakpoints, b.id ≠ id := by
  obtain ⟨r, l⟩ := s
  cases act with
  | remove i =>
    obtain rfl : i = id := hact
    obtain ⟨existed, r', l', hrun, -, hno⟩ := remove_run h i
    change ∀ b ∈ (r.remove i l).1.2.breakpoints, b.id ≠ i
    rw [hrun]
    exact hno
  | clear =>
    obtain ⟨l', hrun, -⟩ := clear_run h
    change ∀ b ∈ (r.clear l).1.breakpoints, b.id ≠ id
    rw [hrun]
    simp
  | register | onTypeLoaded | rescan | setEnabled | recordHit | decide | change => contradiction

/-- A request never changes hands: it has the owner that it had before, or none. -/
theorem Follows.owner? {s s' : Registry × Link} (h : Follows s s') (hs : s.1.Sound s.2.target)
    (hs' : s'.1.Sound s'.2.target) {request : RequestId} {id id' : BreakpointId}
    (ho : s.1.owner? request = some id) (ho' : s'.1.owner? request = some id') : id' = id := by
  obtain ⟨b, hb, rfl, hm⟩ := hs.owner?_eq_some.mp ho
  have hown := (hs.owners request b.id).mpr ⟨b, hb, rfl, hm⟩
  have hown' := (hs'.owners request id').mpr (hs'.owner?_eq_some.mp ho')
  have hle := hs.owner_le (List.mem_map.mpr ⟨_, hown, rfl⟩)
  have hback := (hs.owners request id').mp (h.owners _ hown' hle)
  exact Option.some.inj ((hs.owner?_eq_some.mpr hback).symm.trans ho)

/-- After a removal, whatever follows and whichever calls fail, the breakpoint stays gone and hits
of requests it ever had go on. An id that is not given out yet can still be given out later. As the
counters of breakpoints and requests never wrap here, no number comes back. -/
theorem removal_final (settings : BreakpointSettings) (refuses : Nat → Call → Option Fault)
    (before after : List Act) {act : Act} {id : BreakpointId}
    (hact : act.Removes (run before (start settings refuses)) id)
    (hid : id < (run before (start settings refuses)).1.nextId ∨
      (run (before ++ act :: after) (start settings refuses)).1.nextId ≤ id) :
    Gone (run (before ++ act :: after) (start settings refuses)) id ∧
      ∀ earlier later, before ++ act :: after = earlier ++ later → ∀ request,
        (run earlier (start settings refuses)).1.owner? request = some id →
          ∀ evaluation thread, (Gate.decide evaluation
            (run (before ++ act :: after) (start settings refuses)).1 request thread
            (run (before ++ act :: after) (start settings refuses)).2).1.1 =
              some .goOn := by
  have hstart := start_sound settings refuses
  have hbefore := run_sound hstart before
  have hend := run_sound hstart (before ++ act :: after)
  have hno : ∀ b ∈ (run (before ++ act :: after) (start settings refuses)).1.breakpoints,
      b.id ≠ id := by
    rintro b hb rfl
    rcases hid with hlt | hle
    · rw [run_append, run_cons] at hb
      have hmoves := step_moves hbefore act
      have hfollows := run_follows (hmoves.sound hbefore) after
      obtain ⟨c, hc, hages⟩ := hfollows.breakpoints b hb
        (Nat.lt_of_lt_of_le hlt (hmoves.follows hbefore).nextId)
      exact step_removes hbefore hact c hc hages.id.symm
    · exact absurd (hend.issued b hb) (Nat.not_lt_of_le hle)
  refine ⟨hend.gone hno, ?_⟩
  intro earlier later hsplit request howner evaluation thread
  have hearlier := run_sound hstart earlier
  have hfollows : Follows (run earlier (start settings refuses))
      (run (before ++ act :: after) (start settings refuses)) := by
    rw [hsplit, run_append]
    exact run_follows hearlier later
  have hnone : (run (before ++ act :: after) (start settings refuses)).1.owner? request = none := by
    rw [Option.eq_none_iff_forall_ne_some]
    intro id' ho'
    obtain rfl := hfollows.owner? hearlier hend howner ho'
    exact (hend.gone hno).owner request ho'
  simp only [Gate.decide, recordHit, hnone]
  rfl

/-- A breakpoint with a request, removed while the target refuses to delete it and registered
anew. -/
theorem removal_final_refused :
    Gone (run ([.change (.define { name := "a.B", methods := [{ name := "m" }] } true),
        .register { site := .method "a.B" "m" none }] ++
        .remove 1 :: [.register { site := .method "a.B" "m" none }])
      (start {} fun _ c => if c = .deleteRequest then some .disconnected else none)) 1 ∧
    ∀ evaluation thread, (Gate.decide evaluation
      (run ([.change (.define { name := "a.B", methods := [{ name := "m" }] } true),
          .register { site := .method "a.B" "m" none }] ++
          .remove 1 :: [.register { site := .method "a.B" "m" none }])
        (start {} fun _ c => if c = .deleteRequest then some .disconnected else none)).1 1 thread
      (run ([.change (.define { name := "a.B", methods := [{ name := "m" }] } true),
          .register { site := .method "a.B" "m" none }] ++
          .remove 1 :: [.register { site := .method "a.B" "m" none }])
        (start {} fun _ c => if c = .deleteRequest then some .disconnected else none)).2).1.1 =
          some .goOn := by
  obtain ⟨hgone, hdecide⟩ := removal_final {}
    (fun _ c => if c = .deleteRequest then some .disconnected else none)
    [.change (.define { name := "a.B", methods := [{ name := "m" }] } true),
      .register { site := .method "a.B" "m" none }]
    [.register { site := .method "a.B" "m" none }]
    (show Act.Removes _ 1 (.remove 1) from rfl) (.inl (by decide +kernel))
  exact ⟨hgone, hdecide _ _ rfl 1 (by decide +kernel)⟩

/-- A registry does not note the removal of an id that it never gave out. -/
theorem removal_before_register :
    (Act.remove 1).Removes (run [] (start {} fun _ _ => none)) 1 ∧
      ¬ Gone (run ([] ++ .remove 1 :: [.register { site := .method "a.B" "m" none }])
        (start {} fun _ _ => none)) 1 := by
  refine ⟨rfl, fun h => ?_⟩
  have hfind := h.find
  revert hfind
  decide

end Registry

end Debugger
