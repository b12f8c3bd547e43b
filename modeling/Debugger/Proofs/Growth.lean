import Debugger.Proofs.Operations
import Debugger.Proofs.Reports

/-!
What an operation of a registry does to its breakpoints. Loads only let them grow: what their user
has set and how often they were hit stays. The other operations touch the one they are told to.
-/

namespace Debugger

namespace Registry

/-- Every breakpoint grew, and there are no others. -/
structure Grows (r r' : Registry) : Prop where
  nextId : r'.nextId = r.nextId
  breakpoints : ∃ g : Breakpoint → Breakpoint, (∀ b, Breakpoint.Grows b (g b)) ∧
    r'.breakpoints = r.breakpoints.map g

/-! ### Loads -/

theorem Reports.grows {r r' : Registry} {ids : List BreakpointId} (h : r.Reports ids r') :
    r.Grows r' := by
  obtain ⟨g, hbs, hg⟩ := h.breakpoints
  exact ⟨h.nextId, g, fun b => (hg b).grows, hbs⟩

theorem onTypeLoaded_grows (type : TypeId) (r : Registry) :
    Yields (r.onTypeLoaded type) fun out => r.Grows out.2 :=
  (onTypeLoaded_reports r type).imp fun _ h => h.grows

theorem rescan_grows (r : Registry) : Yields r.rescan fun out => r.Grows out.2 :=
  (rescan_reports r).imp fun _ h => h.1.grows

/-! ### Other operations -/

/-- What a new breakpoint is like apart from its requests is settled before the target is asked. -/
theorem resolveNew_grows (r : Registry) (b : Breakpoint) (l : Link) {b' : Breakpoint}
    {as : List Attachment} (h : (r.resolveNew b l).1 = .ok (b', as)) : b.Grows b' := by
  have hattach (resolution : Resolution) : b.Grows { b.attach as with resolution } :=
    (Breakpoint.Grows.attach b as).trans (.resolve _ resolution)
  cases hsite : b.site with
  | line file line =>
    simp only [resolveNew, hsite, OverLink.bind_run] at h
    cases hlist : ((Remote.listLoaded none).outcome l).1 with
    | error fault =>
      rw [hlist] at h
      contradiction
    | ok types =>
      rw [hlist] at h
      cases h
      exact hattach _
  | method owner name params =>
    simp only [resolveNew, hsite, OverLink.bind_run] at h
    cases hlist : ((Remote.listLoaded (some owner)).outcome l).1 with
    | error fault =>
      rw [hlist] at h
      contradiction
    | ok types =>
      rw [hlist] at h
      cases h
      exact hattach _

/-- A new breakpoint is as it was asked for, and has no hits. -/
theorem accept_spec {r : Registry} {spec : BreakpointSpec} {b : Breakpoint}
    (h : r.accept spec = .ok b) :
    b.site = spec.site ∧ b.enabled = spec.enabled ∧ b.hits = 0 := by
  simp only [accept, bind, Except.bind] at h
  split at h
  · contradiction
  · split at h
    · contradiction
    · cases h
      exact ⟨rfl, rfl, rfl⟩

/-- A registration adds the breakpoint that was asked for, or none. -/
theorem register_grows (r : Registry) (spec : BreakpointSpec) (l : Link) :
    r.nextId ≤ (r.register spec l).1.2.nextId ∧
      ((r.register spec l).1.2.breakpoints = r.breakpoints ∨
        ∃ b b', r.accept spec = .ok b ∧ b.Grows b' ∧
          (r.register spec l).1.2.breakpoints = r.breakpoints ++ [b']) := by
  cases hacc : r.accept spec with
  | error e =>
    simp only [register, hacc]
    exact ⟨Nat.le_refl _, .inl rfl⟩
  | ok b =>
    simp only [register, hacc, OverLink.bind_run]
    cases hres : (({ r with nextId := r.nextId + 1 } : Registry).resolveNew b l).1 with
    | error fault => exact ⟨Nat.le_succ _, .inl rfl⟩
    | ok found =>
      obtain ⟨b', as⟩ := found
      have hgrows := resolveNew_grows _ b l hres
      refine ⟨?_, .inr ⟨b, b', rfl, hgrows, ?_⟩⟩
      · change r.nextId ≤ (Registry.insert _ b' as).nextId
        rw [insert_eq]
        exact Nat.le_succ _
      · change (Registry.insert _ b' as).breakpoints = _
        rw [insert_eq]

theorem remove_breakpoints (r : Registry) (id : BreakpointId) (l : Link) :
    (r.remove id l).1.2.nextId = r.nextId ∧
      (r.remove id l).1.2.breakpoints = r.breakpoints.filter (·.id ≠ id) := by
  cases hf : r.find? id with
  | none =>
    simp only [remove, hf]
    refine ⟨rfl, (List.filter_eq_self.mpr fun b hb => ?_).symm⟩
    simpa using List.find?_eq_none.mp hf b hb
  | some b =>
    simp only [remove, hf]
    exact ⟨rfl, rfl⟩

/-- Switching changes nothing but whether the breakpoint is enabled. -/
theorem setEnabled_registry (r : Registry) (id : BreakpointId) (enabled : Bool) (l : Link) :
    (r.setEnabled id enabled l).1.2 = r ∨
      (r.setEnabled id enabled l).1.2 = r.update id ({ · with enabled }) := by
  cases hf : r.find? id with
  | none =>
    simp only [setEnabled, hf]
    exact .inl rfl
  | some b =>
    simp only [setEnabled, hf, OverLink.bind_run]
    cases (switchRequests enabled b.requests l).1 with
    | error fault => exact .inl rfl
    | ok u => exact .inr rfl

/-! ### Hits -/

/-- The breakpoint that has the request counts one more hit, if it is enabled. -/
def counted (r : Registry) (request : RequestId) : Registry :=
  { r with breakpoints := r.breakpoints.map fun b =>
      if b.enabled && b.requests.contains request then { b with hits := b.hits + 1 } else b }

theorem Accounted.recordHit_eq {r : Registry} {t : Target} (h : r.Accounted t)
    (request : RequestId) : (r.recordHit request).2 = r.counted request := by
  have hnone (hno : ∀ b ∈ r.breakpoints, request ∉ b.requests) : r = r.counted request := by
    have hmap : (r.breakpoints.map fun b => if b.enabled && b.requests.contains request
        then { b with hits := b.hits + 1 } else b) = r.breakpoints := by
      refine (List.map_congr_left fun b hb => ?_).trans (List.map_id' _)
      simp [hno b hb]
    rw [counted, hmap]
  cases hb : (r.owner? request).bind r.find? with
  | none =>
    simp only [recordHit, hb]
    refine hnone fun b hb' hm => ?_
    have howner := h.owner?_eq_some.mpr ⟨b, hb', rfl, hm⟩
    rw [howner, Option.bind_some, h.find?_eq_some.mpr ⟨hb', rfl⟩] at hb
    contradiction
  | some b =>
    obtain ⟨id, howner, hfind⟩ := Option.bind_eq_some_iff.mp hb
    obtain ⟨hb', rfl⟩ := h.find?_eq_some.mp hfind
    obtain ⟨c, hc, hid, hm⟩ := h.owner?_eq_some.mp howner
    obtain rfl := h.unique hc hb' hid
    simp only [recordHit, hb, update, counted]
    congr 1
    refine List.map_congr_left fun d hd => ?_
    by_cases hdc : d.id = c.id
    · obtain rfl := h.unique hd hc hdc
      cases d.enabled <;> simp [hm]
    · have hno : request ∉ d.requests := fun hmd => hdc (congrArg _ (h.apart hd hc hmd hm))
      cases c.enabled <;> simp [hdc, hno]

end Registry

end Debugger
