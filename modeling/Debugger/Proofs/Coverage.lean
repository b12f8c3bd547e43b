import Debugger.Proofs.Runs

/-!
Coverage: on a target that answers, a breakpoint misses no type that a registration, a notification
or a rescan has looked at since both were there.
-/

namespace Debugger

namespace Registry

/-- The act looks at the type for the breakpoint of the id: it registers the breakpoint, or reports
the type or rescans while the breakpoint is registered. -/
inductive Act.Looks (s : Registry × Link) (id : BreakpointId) (type : TypeId) : Act → Prop
  | registered {spec : BreakpointSpec} (next : s.1.nextId = id)
      (taken : ∃ b ∈ (step s (.register spec)).1.breakpoints, b.id = id) :
      Looks s id type (.register spec)
  | reported (listed : ∃ b ∈ s.1.breakpoints, b.id = id) : Looks s id type (.onTypeLoaded type)
  | rescanned (listed : ∃ b ∈ s.1.breakpoints, b.id = id) : Looks s id type .rescan

/-- Whether a type is loaded. -/
def Loaded (s : Registry × Link) (type : TypeId) : Prop :=
  ∃ e, s.2.target.type? type = some e ∧ e.loaded = true

instance (s : Registry × Link) (type : TypeId) : Decidable (Loaded s type) :=
  decidable_of_iff ((s.2.target.type? type).any (·.loaded)) (Option.any_eq_true ..)

/-- At some point of the run the type was loaded and looked at for the breakpoint. -/
def Seen (settings : BreakpointSettings) (acts : List Act) (id : BreakpointId) (type : TypeId) :
    Prop :=
  ∃ before act after, acts = before ++ act :: after ∧
    Loaded (run before (start settings fun _ _ => none)) type ∧
    act.Looks (run before (start settings fun _ _ => none)) id type

theorem Act.Looks.covered {s : Registry × Link} {id : BreakpointId} {type : TypeId} {act : Act}
    (h : act.Looks s id type) (hs : s.1.Sound s.2.target) (hl : s.2.Reliable)
    (ht : Loaded s type) : Covered (step s act) id type ∧ id < (step s act).1.nextId := by
  obtain ⟨r, l⟩ := s
  obtain ⟨e, he, hloaded⟩ := ht
  have hsound := (step_moves hs act).sound hs
  have hfollows := (step_moves hs act).follows hs
  cases h with
  | @registered spec hnext htaken =>
    obtain ⟨b, hb, hid⟩ := htaken
    refine ⟨?_, hid ▸ hsound.issued b hb⟩
    obtain ⟨result, r', l', hrun, hregisters⟩ := register_run hs spec
    have hcovered := hregisters.covered hl type e he hloaded
    change Covered ((r.register spec l).1.2, (r.register spec l).2) id type
    rw [hrun, ← hnext]
    exact hcovered
  | reported hlisted =>
    obtain ⟨b, hb, rfl⟩ := hlisted
    refine ⟨?_, Nat.lt_of_lt_of_le (hs.issued b hb) hfollows.nextId⟩
    obtain ⟨ids, r', l', hrun, -, hcovered⟩ := onTypeLoaded_run hs type
    change Covered ((r.onTypeLoaded type l).1.2, (r.onTypeLoaded type l).2) b.id type
    rw [hrun]
    exact hcovered hl e he b hb
  | rescanned hlisted =>
    obtain ⟨b, hb, rfl⟩ := hlisted
    refine ⟨?_, Nat.lt_of_lt_of_le (hs.issued b hb) hfollows.nextId⟩
    obtain ⟨ids, r', l', hrun, -, hcovered⟩ := rescan_run hs
    change Covered ((r.rescan l).1.2, (r.rescan l).2) b.id type
    rw [hrun]
    exact hcovered hl type e he hloaded b hb

/-- What was seen once stays covered until the breakpoint is gone. -/
theorem Seen.covered {settings : BreakpointSettings} {acts : List Act} {id : BreakpointId}
    {type : TypeId} (h : Seen settings acts id type)
    (hl : (run acts (start settings fun _ _ => none)).2.Reliable) :
    Covered (run acts (start settings fun _ _ => none)) id type := by
  obtain ⟨before, act, after, rfl, hloaded, hlooks⟩ := h
  have hbefore := run_sound (start_sound settings fun _ _ => none) before
  have hmoves := step_moves hbefore act
  have hlater := run_follows (hmoves.sound hbefore) after
  rw [run_append, run_cons] at hl ⊢
  obtain ⟨e, he, hload⟩ := hloaded
  obtain ⟨e', he', -⟩ := (hmoves.follows hbefore).types he
  obtain ⟨hcovered, hlt⟩ := hlooks.covered hbefore
    (((hmoves.follows hbefore).trans hlater).reliable hl) ⟨e, he, hload⟩
  exact hcovered.follows hlater hlt he'

/-- No load is missed. Where every loaded type was looked at for a breakpoint, a pending one has no
code to attach to, and one that is partly attached has a request wherever there is code. Each number
of a request stands for that one alone, and did so all along. -/
theorem no_load_missed (settings : BreakpointSettings) (acts : List Act) {b : Breakpoint}
    (hconnected : (run acts (start settings fun _ _ => none)).2.target.connected = true)
    (hroom : (run acts (start settings fun _ _ => none)).2.target.Unwrapped)
    (hb : b ∈ (run acts (start settings fun _ _ => none)).1.breakpoints)
    (hseen : ∀ type, Loaded (run acts (start settings fun _ _ => none)) type →
      Seen settings acts b.id type) :
    (b.resolution = .pending → ∀ type e,
      (run acts (start settings fun _ _ => none)).2.target.type? type = some e → e.loaded = true →
        b.site.Concerns settings.sourceMatch e → ¬ b.site.Offers e) ∧
    (b.resolution = .partly → ∀ type e,
      (run acts (start settings fun _ _ => none)).2.target.type? type = some e → e.loaded = true →
        b.site.Concerns settings.sourceMatch e → b.site.Offers e →
          ∃ q ∈ (run acts (start settings fun _ _ => none)).2.target.requests,
            q.id ∈ b.requests ∧ q.location.type = type) ∧
    ∀ before, before <+: acts →
      (run before (start settings fun _ _ => none)).2.target.NumbersDiffer := by
  have hstart := start_sound settings fun _ _ => none
  have hfollows := run_follows hstart acts
  have hsound := (run_sound hstart acts).each b hb
  have hl : (run acts (start settings fun _ _ => none)).2.Reliable :=
    ⟨hconnected, fun n c => by rw [hfollows.refuses]; rfl⟩
  have hcovered : ∀ type e,
      (run acts (start settings fun _ _ => none)).2.target.type? type = some e → e.loaded = true →
        b.site.Concerns settings.sourceMatch e → b.site.Offers e →
          b.resolution = .resolved ∨ type ∈ b.attached := by
    intro type e he hloaded hconcerns
    refine (hseen type ⟨e, he, hloaded⟩).covered hl b hb rfl e he ?_
    rw [hfollows.settings]
    exact hconcerns
  refine ⟨?_, ?_, fun before => run_numbersDiffer hstart hroom⟩
  · intro hpending type e he hloaded hconcerns hoffers
    have hnone : b.attached = [] := hsound.attached_eq_nil.mpr (hsound.pending.mp hpending)
    rcases hcovered type e he hloaded hconcerns hoffers with hres | hin
    · rw [hpending] at hres
      contradiction
    · rw [hnone] at hin
      contradiction
  · intro hpartly type e he hloaded hconcerns hoffers
    rcases hcovered type e he hloaded hconcerns hoffers with hres | hin
    · rw [hpartly] at hres
      contradiction
    · exact hsound.type hin

/-- Of two types from one file only one has code on the line. -/
theorem no_load_missed_partly : ∃ acts b,
    b ∈ (run acts (start {} fun _ _ => none)).1.breakpoints ∧ b.resolution = .partly ∧
      (∀ type e, (run acts (start {} fun _ _ => none)).2.target.type? type = some e →
        e.loaded = true → b.site.Concerns .tolerant e → b.site.Offers e →
          ∃ q ∈ (run acts (start {} fun _ _ => none)).2.target.requests,
            q.id ∈ b.requests ∧ q.location.type = type) ∧
      (run acts (start {} fun _ _ => none)).2.target.NumbersDiffer := by
  let types : List Act :=
    [.change (.define { name := "a.B", sourceFile := some "B.kt", lines := [3] } true),
      .change (.define { name := "a.C", sourceFile := some "src/B.kt", lines := [9] } true)]
  let spec : BreakpointSpec := { site := .line "B.kt" 3 }
  have hnext : (run types (start {} fun _ _ => none)).1.nextId = 1 := by decide +kernel
  have hconnected : (run (types ++ [.register spec])
      (start {} fun _ _ => none)).2.target.connected = true := by decide +kernel
  have hroom : (run (types ++ [.register spec])
      (start {} fun _ _ => none)).2.target.Unwrapped := by decide +kernel
  have hpartly : ∃ b ∈ (run (types ++ [.register spec]) (start {} fun _ _ => none)).1.breakpoints,
      b.id = 1 ∧ b.resolution = .partly := by decide +kernel
  have hbefore : ∀ e ∈ (run (types ++ [.register spec]) (start {} fun _ _ => none)).2.target.types,
      ((run types (start {} fun _ _ => none)).2.target.type? e.id).any (·.loaded) = true := by
    decide +kernel
  clear_value types
  obtain ⟨b, hb, hid, hres⟩ := hpartly
  have hseen : ∀ type, Loaded (run (types ++ [.register spec]) (start {} fun _ _ => none)) type →
      Seen {} (types ++ [.register spec]) b.id type := by
    rintro type ⟨e, he, -⟩
    have hm := List.mem_of_find?_eq_some he
    obtain rfl : e.id = type := by simpa using List.find?_some he
    obtain ⟨e', he', hloaded⟩ := (Option.any_eq_true _ _).mp (hbefore e hm)
    exact ⟨types, _, [], rfl, ⟨e', he', hloaded⟩,
      .registered (hnext.trans hid.symm) ⟨b, by rwa [run_append] at hb, rfl⟩⟩
  obtain ⟨-, hrequests, hdiffer⟩ := no_load_missed {} _ hconnected hroom hb hseen
  exact ⟨_, b, hb, hres, hrequests hres, hdiffer _ (List.prefix_refl _)⟩

end Registry

end Debugger
