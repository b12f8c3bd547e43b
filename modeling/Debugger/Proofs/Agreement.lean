import Debugger.Proofs.Operations

/-!
Agreement: on a target that answers, its requests are those of the registry, each where and as its
breakpoint wants it.
-/

namespace Debugger

/-- The request is one of the breakpoint's, is enabled as that is, and lies at code that it asks
for. -/
structure Breakpoint.Wants (mode : SourceMatch) (t : Target) (b : Breakpoint) (q : Request) :
    Prop where
  listed : q.id ∈ b.requests
  enabled : q.enabled = b.enabled
  placed : ∃ e, t.type? q.location.type = some e ∧ b.site.Concerns mode e ∧
    b.site.Holds e q.location

/-- The types of the target may have been loaded meanwhile. -/
theorem Breakpoint.Wants.evolve {mode : SourceMatch} {t t' : Target} {b : Breakpoint} {q : Request}
    (h : b.Wants mode t q) (he : t.Evolves t') : b.Wants mode t' q := by
  obtain ⟨e, hte, hconcerns, hholds⟩ := h.placed
  obtain ⟨e', hte', hbecomes⟩ := he.types hte
  exact ⟨h.listed, h.enabled, e', hte', (Site.concerns_becomes hbecomes).mpr hconcerns,
    (Site.holds_becomes hbecomes).mpr hholds⟩

namespace Registry

/-- Every request is as some breakpoint wants it. -/
def Agrees (r : Registry) (t : Target) : Prop :=
  ∀ q ∈ t.requests, ∃ b ∈ r.breakpoints, b.Wants r.settings.sourceMatch t q

theorem Accounted.requests_nodup {r : Registry} {t : Target} (h : r.Accounted t) :
    (r.breakpoints.flatMap (·.requests)).Nodup := by
  refine List.nodup_flatMap.mpr ⟨fun b hb => (h.each b hb).nodup, ?_⟩
  refine (List.Nodup.of_map _ h.ids).pairwise_of_forall_ne fun b hb c hc hne => ?_
  exact fun request hrb hrc => hne (h.apart hb hc hrb hrc)

namespace Agrees

variable {r : Registry} {t : Target} (h : r.Agrees t)

include h

/-- A request that a breakpoint lists is as that one wants it. -/
theorem wants (ha : r.Accounted t) {b : Breakpoint} (hb : b ∈ r.breakpoints) {q : Request}
    (hq : q ∈ t.requests) (hm : q.id ∈ b.requests) : b.Wants r.settings.sourceMatch t q := by
  obtain ⟨c, hc, hwants⟩ := h q hq
  rwa [ha.apart hb hc hm hwants.listed]

/-- Both sides hold the same requests, each of them once. -/
theorem perm (ha : r.Accounted t) :
    (t.requests.map (·.id)).Perm (r.breakpoints.flatMap (·.requests)) := by
  refine (List.perm_ext_iff_of_nodup ha.target.requests_nodup ha.requests_nodup).mpr fun id => ?_
  rw [List.mem_flatMap]
  constructor
  · intro hid
    obtain ⟨q, hq, rfl⟩ := List.mem_map.mp hid
    obtain ⟨b, hb, hwants⟩ := h q hq
    exact ⟨b, hb, hwants.listed⟩
  · rintro ⟨b, hb, hm⟩
    obtain ⟨q, hq, hid, -⟩ := (ha.each b hb).request hm
    exact List.mem_map.mpr ⟨q, hq, hid⟩

/-! ### Steps -/

theorem evolve {t' : Target} (he : t.Evolves t') : r.Agrees t' := by
  intro q hq
  rw [he.requests] at hq
  obtain ⟨b, hb, hwants⟩ := h q hq
  exact ⟨b, hb, hwants.evolve he⟩

theorem of_same {t' : Target} (hreq : t'.requests = t.requests) (htypes : t'.types = t.types) :
    r.Agrees t' := by
  intro q hq
  rw [hreq] at hq
  obtain ⟨b, hb, hwants⟩ := h q hq
  refine ⟨b, hb, hwants.listed, hwants.enabled, ?_⟩
  rw [Target.type?, htypes]
  exact hwants.placed

theorem enlist (b : Breakpoint) : (r.enlist b).Agrees t := by
  intro q hq
  obtain ⟨c, hc, hwants⟩ := h q hq
  exact ⟨c, List.mem_append_left _ hc, hwants⟩

/-- A breakpoint may change as long as it wants its requests. -/
theorem update (ha : r.Accounted t) {b : Breakpoint} (hb : b ∈ r.breakpoints)
    {f : Breakpoint → Breakpoint}
    (hf : ∀ q, b.Wants r.settings.sourceMatch t q → (f b).Wants r.settings.sourceMatch t q) :
    (r.update b.id f).Agrees t := by
  intro q hq
  obtain ⟨c, hc, hwants⟩ := h q hq
  by_cases he : c.id = b.id
  · obtain rfl := ha.unique hc hb he
    exact ⟨f c, (ha.mem_update hb f).mpr (.inl rfl), hf q hwants⟩
  · exact ⟨c, (ha.mem_update hb f).mpr (.inr ⟨hc, he⟩), hwants⟩

/-- All requests of a breakpoint are switched with it, and no others. -/
theorem toggle (ha : r.Accounted t) {b : Breakpoint} (hb : b ∈ r.breakpoints) (enabled : Bool) :
    (r.update b.id ({ · with enabled })).Agrees (t.switch b.requests enabled) := by
  have hmem {c : Breakpoint} := ha.mem_update (c := c) hb ({ · with enabled })
  intro q hq
  obtain ⟨p, hp, rfl⟩ := List.mem_map.mp hq
  by_cases hm : p.id ∈ b.requests
  · rw [if_pos hm]
    have hwants := h.wants ha hb hp hm
    exact ⟨_, hmem.mpr (.inl rfl), hm, rfl, hwants.placed⟩
  · rw [if_neg hm]
    obtain ⟨c, hc, hwants⟩ := h p hp
    have hne : c.id ≠ b.id := fun he => hm (ha.unique hc hb he ▸ hwants.listed)
    exact ⟨c, hmem.mpr (.inr ⟨hc, hne⟩), hwants.listed, hwants.enabled, hwants.placed⟩

theorem forget (ha : r.Accounted t) {b : Breakpoint} (hb : b ∈ r.breakpoints) :
    (r.forget b).Agrees (t.without b.requests) := by
  intro q hq
  obtain ⟨hq, hno⟩ := List.mem_filter.mp hq
  obtain ⟨c, hc, hwants⟩ := h q hq
  have hne : c.id ≠ b.id := by
    intro he
    rw [← ha.unique hc hb he] at hno
    simp [hwants.listed] at hno
  exact ⟨c, List.mem_filter.mpr ⟨hc, by simpa using hne⟩, hwants.listed, hwants.enabled,
    hwants.placed⟩

/-- Where all requests with an owner are gone, no request is left. -/
theorem clear (ha : r.Accounted t) (settings : BreakpointSettings) (nextId : BreakpointId) :
    ({ settings, nextId } : Registry).Agrees (t.without (r.owners.map (·.1))) := by
  intro q hq
  obtain ⟨hq, hno⟩ := List.mem_filter.mp hq
  obtain ⟨b, hb, hwants⟩ := h q hq
  have hown : q.id ∈ r.owners.map (·.1) := List.mem_map.mpr
    ⟨(q.id, b.id), (ha.owners q.id b.id).mpr ⟨b, hb, rfl, hwants.listed⟩, rfl⟩
  exact absurd hown (by simpa using hno)

end Agrees

/-- New requests of a breakpoint join the old ones. -/
theorem Agrees.grant {r : Registry} {l l' : Link} (h : r.Agrees l.target)
    (ha : r.Accounted l.target) (hl : l.Reliable) {b : Breakpoint} {news : List Request}
    {resolution : Resolution} (g : r.Grants l b news resolution l') :
    (r.grant b.id (news.map Request.attachment) resolution).Agrees l'.target := by
  have hwants {q : Request} (hm : q.id ∈ b.requests ++ news.map (·.id))
      (henabled : q.enabled = b.enabled) (hplaced : ∃ e, l.target.type? q.location.type = some e ∧
        b.site.Concerns r.settings.sourceMatch e ∧ b.site.Holds e q.location) :
      (b.gain (news.map Request.attachment) resolution).Wants r.settings.sourceMatch l.target
        q := by
    refine ⟨?_, ?_, ?_⟩
    · rwa [Breakpoint.gain_requests, Request.attachments_requests]
    · rwa [Breakpoint.gain_enabled]
    · rwa [Breakpoint.gain_site]
  have hold := h.update ha g.listed (f := (·.gain (news.map Request.attachment) resolution))
    fun q hq => hwants (List.mem_append_left _ hq.listed) hq.enabled hq.placed
  have hsome {q : Request} (hq : q ∈ l'.target.requests) :
      ∃ c ∈ (r.grant b.id (news.map Request.attachment) resolution).breakpoints,
        c.Wants r.settings.sourceMatch l.target q := by
    rw [g.adds.requests] at hq
    rcases List.mem_append.mp hq with hq | hq
    · exact hold q hq
    · refine ⟨_, (ha.mem_update g.listed _).mpr (.inl rfl), ?_⟩
      exact hwants (List.mem_append_right _ (List.mem_map.mpr ⟨q, hq, rfl⟩)) (g.switched hl q hq)
        (g.placed q hq)
  intro q hq
  obtain ⟨c, hc, hcq⟩ := hsome hq
  refine ⟨c, hc, hcq.listed, hcq.enabled, ?_⟩
  rw [g.adds.type?]
  exact hcq.placed

theorem Step.agrees {s s' : Registry × Link} (h : Step s s') (ha : s.1.Accounted s.2.target)
    (hl : s.2.Reliable) (hagrees : s.1.Agrees s.2.target) : s'.1.Agrees s'.2.target := by
  cases h with
  | elapse he => exact hagrees.evolve he
  | skip | relist => exact hagrees
  | enlist => exact hagrees.enlist _
  | grant g => exact hagrees.grant ha hl g
  | count hits hb =>
    exact hagrees.update ha hb fun q hq => ⟨hq.listed, hq.enabled, hq.placed⟩
  | toggle hb _ ht _ hwhole =>
    rw [ht, hwhole hl]
    exact hagrees.toggle ha hb _
  | falter _ _ _ _ hrefused => exact absurd hl hrefused
  | forget hb _ ht _ hwhole =>
    rw [ht, hwhole hl]
    exact hagrees.forget ha hb
  | clear _ ht _ hwhole =>
    rw [ht, hwhole hl]
    exact hagrees.clear ha _ _

/-- A target that answers at the end has answered all the time. -/
theorem Steps.agrees {s s' : Registry × Link} (h : Steps s s') (ha : s.1.Accounted s.2.target)
    (hl : s'.2.Reliable) (hagrees : s.1.Agrees s.2.target) : s'.1.Agrees s'.2.target := by
  induction h with
  | refl => exact hagrees
  | tail hsteps hstep ih =>
    have hmid := Steps.accounted hsteps ha
    have hl' := (hstep.follows hmid).reliable hl
    exact hstep.agrees hmid hl' (ih hl')

end Registry

end Debugger
