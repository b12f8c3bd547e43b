import Debugger.Proofs.Runs

/-!
Consistency: in every state that a run reaches, what the registry says in one place agrees with what
it says in the others.
-/

namespace Debugger

namespace Registry

/-- A request belongs to the one breakpoint that has it, which has it once. -/
structure OwnersTold (r : Registry) : Prop where
  owner : ∀ request id, r.owner? request = some id ↔
    ∃ b, r.find? id = some b ∧ request ∈ b.requests
  once : ∀ b ∈ r.breakpoints, b.requests.Nodup
  apart : ∀ b ∈ r.breakpoints, ∀ c ∈ r.breakpoints, ∀ request ∈ b.requests,
    request ∈ c.requests → b = c

/-- A line that is not resolved waits once, for its file; a method that is pending waits once, for
its type. Nothing else waits. -/
structure WaitingTold (r : Registry) : Prop where
  line : ∀ b ∈ r.breakpoints, ∀ file line, b.site = .line file line →
    (∀ path, (r.pendingFor path).filter (·.id = b.id) =
      if b.resolution ≠ .resolved ∧ SourcePath.fileName file = SourcePath.fileName path
      then [⟨b.id, file, line⟩] else []) ∧
    r.pendingTypes.filter (·.2 = b.id) = []
  method : ∀ b ∈ r.breakpoints, ∀ type name params, b.site = .method type name params →
    r.pendingTypes.filter (·.2 = b.id) =
      (if b.resolution = .pending then [(type, b.id)] else []) ∧
    r.pendingLines.filter (·.id = b.id) = []
  lines : ∀ p ∈ r.pendingLines, ∃ b, r.find? p.id = some b
  types : ∀ w ∈ r.pendingTypes, ∃ b, r.find? w.2 = some b

/-- Every request of the breakpoint is at the target. A line has at most one in each type, and has
as many requests as types. -/
structure OneEach (t : Target) (b : Breakpoint) : Prop where
  there : ∀ request ∈ b.requests, ∃ q ∈ t.requests, q.id = request ∧ q.location.type ∈ b.attached
  line : b.site.isLine = true → ∀ p ∈ t.requests, ∀ q ∈ t.requests, p.id ∈ b.requests →
    q.id ∈ b.requests → p.location.type = q.location.type → p = q
  types : b.site.isLine = true → b.attached.Nodup ∧ b.attached.length = b.requests.length

section Lists

variable {r : Registry} {t : Target} {b : Breakpoint} {α : Type}

/-- What a list made from the breakpoints holds under an id comes from the one breakpoint. -/
theorem Accounted.filter_flatMap (h : r.Accounted t) (hb : b ∈ r.breakpoints)
    (w : Breakpoint → List α) (key : α → BreakpointId) (hkey : ∀ c, ∀ a ∈ w c, key a = c.id) :
    (r.breakpoints.flatMap w).filter (key · = b.id) = w b := by
  have hmine (c : Breakpoint) (hc : c ∈ r.breakpoints) :
      (w c).filter (key · = b.id) = if c = b then w b else [] := by
    split
    · rename_i he
      subst he
      exact List.filter_eq_self.mpr fun a ha => by simpa using hkey c a ha
    · rename_i hne
      refine List.filter_eq_nil_iff.mpr fun a ha hid => hne (h.unique hc hb ?_)
      rw [← hkey c a ha]
      simpa using hid
  rw [List.filter_flatMap, List.flatMap_congr hmine]
  have hnodup : r.breakpoints.Nodup := List.Nodup.of_map _ h.ids
  clear hmine h
  generalize r.breakpoints = bs at hb hnodup
  induction bs with
  | nil => contradiction
  | cons c bs ih =>
    obtain ⟨hc, hnodup⟩ := List.nodup_cons.mp hnodup
    rw [List.flatMap_cons]
    rcases List.mem_cons.mp hb with rfl | hb
    · have hrest : bs.flatMap (fun c => if c = b then w b else []) = [] := by
        refine List.flatMap_eq_nil_iff.mpr fun d hd => if_neg ?_
        rintro rfl
        exact hc hd
      rw [if_pos rfl, hrest, List.append_nil]
    · rw [if_neg (by rintro rfl; exact hc hb), List.nil_append, ih hb hnodup]

end Lists

namespace Sound

variable {r : Registry} {t : Target} (h : r.Sound t)

include h

theorem ownersTold : r.OwnersTold := by
  refine ⟨fun request id => ?_, fun b hb => (h.each b hb).nodup, fun b hb c hc request =>
    h.apart hb hc⟩
  rw [h.owner?_eq_some]
  simp only [h.find?_eq_some, and_assoc]

theorem lines_of {b : Breakpoint} (hb : b ∈ r.breakpoints) :
    r.pendingLines.filter (·.id = b.id) = b.waitingLines := by
  rw [h.lines]
  exact h.filter_flatMap hb _ (fun p : PendingLine => p.id)
    fun c p hp => (Breakpoint.mem_waitingLines.mp hp).1.symm

theorem types_of {b : Breakpoint} (hb : b ∈ r.breakpoints) :
    r.pendingTypes.filter (·.2 = b.id) = b.waitingTypes := by
  rw [h.types]
  exact h.filter_flatMap hb _ (fun p : String × BreakpointId => p.2)
    fun c p hp => (Breakpoint.mem_waitingTypes.mp hp).1.symm

theorem waitingTold : r.WaitingTold := by
  refine ⟨?_, ?_, ?_, ?_⟩
  · intro b hb file line hsite
    refine ⟨fun path => ?_, ?_⟩
    · rw [pendingFor, List.filter_comm, h.lines_of hb, Breakpoint.waitingLines, hsite]
      by_cases hres : b.resolution = .resolved
      · simp [hres]
      · by_cases hfile : SourcePath.fileName file = SourcePath.fileName path <;> simp [hres, hfile]
    · rw [h.types_of hb, Breakpoint.waitingTypes, hsite]
  · intro b hb type name params hsite
    rw [h.types_of hb, h.lines_of hb, Breakpoint.waitingTypes, Breakpoint.waitingLines, hsite]
    have hpending : b.resolution = .pending ↔ b.resolution ≠ .resolved := by
      have hno := (h.each b hb).method (by rw [hsite]; rfl)
      cases hres : b.resolution <;> simp_all
    refine ⟨?_, rfl⟩
    by_cases hp : b.resolution = .pending
    · rw [if_pos hp]
      exact if_neg (hpending.mp hp)
    · rw [if_neg hp]
      exact if_pos (not_not.mp fun hne => hp (hpending.mpr hne))
  · intro p hp
    rw [h.lines] at hp
    obtain ⟨b, hb, hid, -⟩ := mem_waitingLines.mp hp
    exact ⟨b, h.find?_eq_some.mpr ⟨hb, hid⟩⟩
  · rintro ⟨type, id⟩ hw
    rw [h.types] at hw
    obtain ⟨b, hb, hid, -⟩ := mem_waitingTypes.mp hw
    exact ⟨b, h.find?_eq_some.mpr ⟨hb, hid⟩⟩

theorem oneEach {b : Breakpoint} (hb : b ∈ r.breakpoints) : OneEach t b := by
  have hs := h.each b hb
  refine ⟨fun request hm => hs.request hm, ?_, ?_⟩
  · exact fun hline p hp q hq hpb hqb => hs.one h.target hline hp hq hpb hqb
  · exact fun hline => ⟨hs.attached_nodup hline, hs.attached_length hline⟩

end Sound

/-- Whatever is done with a registry, whichever calls fail, what it says is consistent. -/
theorem run_consistent (settings : BreakpointSettings) (refuses : Nat → Call → Option Fault)
    (acts : List Act) :
    (run acts (start settings refuses)).1.OwnersTold ∧
    (run acts (start settings refuses)).1.WaitingTold ∧
    (∀ b ∈ (run acts (start settings refuses)).1.breakpoints,
      b.resolution = .pending ↔ b.requests = []) ∧
    ∀ b ∈ (run acts (start settings refuses)).1.breakpoints,
      OneEach (run acts (start settings refuses)).2.target b := by
  have h := run_sound (start_sound settings refuses) acts
  exact ⟨h.ownersTold, h.waitingTold, fun b hb => (h.each b hb).pending, fun b hb => h.oneEach hb⟩

end Registry

end Debugger
