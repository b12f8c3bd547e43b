import Debugger.Proofs.Agreement

/-!
Exactness: on a target that answers, a breakpoint has exactly the places that it asks for in the
types to which it is attached, in their order.
-/

namespace Debugger

namespace Target

/-- Where the requests of these numbers lie. -/
def locationsOf (t : Target) (ids : List RequestId) : List Location :=
  ids.filterMap fun id => (t.request? id).map (·.location)

variable {t t' : Target}

theorem Sound.request?_eq (h : t.Sound) {q : Request} (hq : q ∈ t.requests) :
    t.request? q.id = some q := by
  cases hf : t.request? q.id with
  | none => simpa using List.find?_eq_none.mp hf q hq
  | some p =>
    have hid : p.id = q.id := by simpa using List.find?_some hf
    rw [h.request_unique (List.mem_of_find?_eq_some hf) hq hid]

theorem Sound.locationsOf_eq (h : t.Sound) {qs : List Request} (hqs : ∀ q ∈ qs, q ∈ t.requests) :
    t.locationsOf (qs.map (·.id)) = qs.map (·.location) := by
  induction qs with
  | nil => rfl
  | cons q qs ih =>
    have hq := h.request?_eq (hqs q (by simp))
    rw [locationsOf, List.map_cons, List.filterMap_cons, hq]
    exact congrArg (q.location :: ·) (ih fun p hp => hqs p (List.mem_cons_of_mem _ hp))

theorem locationsOf_append (t : Target) (ids more : List RequestId) :
    t.locationsOf (ids ++ more) = t.locationsOf ids ++ t.locationsOf more :=
  List.filterMap_append

/-- Requests that stay where they are may be switched, and others may come and go. -/
theorem Sound.locationsOf_keep (h : t.Sound) (h' : t'.Sound) {ids : List RequestId}
    (hkeep : ∀ id ∈ ids, ∃ q ∈ t.requests, q.id = id ∧
      ∃ q' ∈ t'.requests, q'.id = id ∧ q'.location = q.location) :
    t'.locationsOf ids = t.locationsOf ids := by
  refine List.filterMap_congr fun id hid => ?_
  obtain ⟨q, hq, rfl, q', hq', hid', hlocation⟩ := hkeep id hid
  rw [h.request?_eq hq, ← hid', h'.request?_eq hq', Option.map_some, Option.map_some, hlocation]

end Target

/-- In every type to which the breakpoint is attached its requests lie in the places that it asks
for there, and it is attached to a part of its types only if there is more than one. -/
structure Breakpoint.Exact (mode : SourceMatch) (t : Target) (b : Breakpoint) : Prop where
  places : ∀ type ∈ b.attached, ∃ e, t.type? type = some e ∧ b.site.Concerns mode e ∧
    (t.locationsOf b.requests).filter (·.type = type) = b.site.places e
  shared : b.resolution = .partly → b.site.Shared mode t

namespace Breakpoint

variable {mode : SourceMatch} {b : Breakpoint} {t t' : Target}

/-- A breakpoint is attached where it has requests. -/
theorem Sound.mem_attached (h : b.Sound t) (ht : t.Sound) {location : Location}
    (hm : location ∈ t.locationsOf b.requests) : location.type ∈ b.attached := by
  obtain ⟨qs, hqs⟩ := h.backed
  rw [hqs.requests, ht.locationsOf_eq hqs.there] at hm
  obtain ⟨q, hq, rfl⟩ := List.mem_map.mp hm
  exact (hqs.types _).mpr (List.mem_map.mpr ⟨q, hq, rfl⟩)

namespace Exact

theorem of_empty (hatt : b.attached = []) (hres : b.resolution = .pending) : b.Exact mode t := by
  refine ⟨fun type hm => ?_, fun hp => ?_⟩
  · rw [hatt] at hm
    contradiction
  · rw [hres] at hp
    contradiction

variable (h : b.Exact mode t)

include h

/-- Types may be added and loaded, as long as the requests stay where they are. -/
theorem carry (htypes : ∀ {id e}, t.type? id = some e → ∃ e', t'.type? id = some e' ∧ e.Becomes e')
    (hlocations : t'.locationsOf b.requests = t.locationsOf b.requests) : b.Exact mode t' := by
  refine ⟨fun type hm => ?_, fun hp => ?_⟩
  · obtain ⟨e, he, hconcerns, hplaces⟩ := h.places type hm
    obtain ⟨e', he', hbecomes⟩ := htypes he
    refine ⟨e', he', (Site.concerns_becomes hbecomes).mpr hconcerns, ?_⟩
    rw [hlocations, hplaces, Site.places_becomes hbecomes]
  · obtain ⟨type, type', e, d, hne, he, hd, hconcerns, hconcerns'⟩ := h.shared hp
    obtain ⟨e', he', hbecomes⟩ := htypes he
    obtain ⟨d', hd', hbecomes'⟩ := htypes hd
    exact ⟨type, type', e', d', hne, he', hd', (Site.concerns_becomes hbecomes).mpr hconcerns,
      (Site.concerns_becomes hbecomes').mpr hconcerns'⟩

/-- Whether a breakpoint is enabled and how often it was hit does not matter. -/
theorem touch (enabled : Bool) (hits : Nat) : { b with enabled, hits }.Exact mode t :=
  ⟨h.places, h.shared⟩

end Exact

end Breakpoint

namespace Registry

/-- Every breakpoint has exactly the places that it asks for where it is attached. -/
def Exact (r : Registry) (t : Target) : Prop :=
  ∀ b ∈ r.breakpoints, b.Exact r.settings.sourceMatch t

namespace Exact

variable {r : Registry} {t t' : Target}

/-- Other breakpoints stay as they are, and the requests of all of them where they are. -/
theorem carry (h : r.Exact t) (ha : r.Accounted t) (ht : t'.Sound)
    (htypes : ∀ {id e}, t.type? id = some e → ∃ e', t'.type? id = some e' ∧ e.Becomes e')
    {r' : Registry} (hsettings : r'.settings = r.settings)
    (hbs : ∀ b' ∈ r'.breakpoints, ∃ b ∈ r.breakpoints,
      b' = { b with enabled := b'.enabled, hits := b'.hits } ∧
      ∀ q ∈ t.requests, q.id ∈ b.requests →
        ∃ q' ∈ t'.requests, q'.id = q.id ∧ q'.location = q.location) : r'.Exact t' := by
  intro b' hb'
  obtain ⟨b, hb, hsame, hkeep⟩ := hbs b' hb'
  have hlocations : t'.locationsOf b.requests = t.locationsOf b.requests := by
    refine ha.target.locationsOf_keep ht fun id hid => ?_
    obtain ⟨q, hq, rfl, -⟩ := (ha.each b hb).request hid
    exact ⟨q, hq, rfl, hkeep q hq hid⟩
  rw [hsame, hsettings]
  exact ((h b hb).carry htypes hlocations).touch _ _

/-- Whether a breakpoint is enabled and how often it was hit may change. -/
theorem touch (h : r.Exact t) (ha : r.Accounted t) (ht : t'.Sound)
    (htypes : ∀ {id e}, t.type? id = some e → ∃ e', t'.type? id = some e' ∧ e.Becomes e')
    {b : Breakpoint} (hb : b ∈ r.breakpoints) {f : Breakpoint → Breakpoint}
    (hf : f b = { b with enabled := (f b).enabled, hits := (f b).hits })
    (hkeep : ∀ q ∈ t.requests, ∃ q' ∈ t'.requests, q'.id = q.id ∧ q'.location = q.location) :
    (r.update b.id f).Exact t' := by
  refine h.carry ha ht htypes rfl fun c hc => ?_
  rcases (ha.mem_update hb f).mp hc with rfl | ⟨hc, -⟩
  · exact ⟨b, hb, hf, fun q hq _ => hkeep q hq⟩
  · exact ⟨c, hc, rfl, fun q hq _ => hkeep q hq⟩

theorem enlist (h : r.Exact t) {b : Breakpoint} (hatt : b.attached = [])
    (hres : b.resolution = .pending) : (r.enlist b).Exact t := by
  intro c hc
  rcases List.mem_append.mp hc with hc | hc
  · exact h c hc
  · rw [List.mem_singleton.mp hc]
    exact .of_empty hatt hres

end Exact

/-- New requests of a breakpoint lie in types that were new to it, in all their places. -/
theorem Grants.exact_gain {r : Registry} {l l' : Link} {b : Breakpoint} {news : List Request}
    {resolution : Resolution} (g : r.Grants l b news resolution l') (ha : r.Accounted l.target)
    (hl : l.Reliable) (h : b.Exact r.settings.sourceMatch l.target) :
    (b.gain (news.map Request.attachment) resolution).Exact r.settings.sourceMatch l'.target := by
  have hb := ha.each b g.listed
  have hsound := g.adds.sound ha.target
  have hold : l'.target.locationsOf b.requests = l.target.locationsOf b.requests := by
    refine ha.target.locationsOf_keep hsound fun id hid => ?_
    obtain ⟨q, hq, rfl, -⟩ := hb.request hid
    refine ⟨q, hq, rfl, q, ?_, rfl, rfl⟩
    rw [g.adds.requests]
    exact List.mem_append_left _ hq
  have hnew : l'.target.locationsOf (news.map (·.id)) = news.map (·.location) := by
    refine hsound.locationsOf_eq fun q hq => ?_
    rw [g.adds.requests]
    exact List.mem_append_right _ hq
  have hlocations : l'.target.locationsOf (b.gain (news.map Request.attachment) resolution).requests
      = l.target.locationsOf b.requests ++ news.map (·.location) := by
    rw [Breakpoint.gain_requests, Request.attachments_requests, Target.locationsOf_append, hold,
      hnew]
  refine ⟨fun type hm => ?_, fun hp => ?_⟩
  · rw [hlocations, Breakpoint.gain_site, List.filter_append]
    rw [Breakpoint.gain_attached, Breakpoint.mem_attach_attached, Request.attachments_types] at hm
    rcases hm with hm | hm
    · obtain ⟨e, he, hconcerns, hplaces⟩ := h.places type hm
      have hnone : (news.map (·.location)).filter (·.type = type) = [] := by
        refine List.filter_eq_nil_iff.mpr fun location hlocation htype => ?_
        obtain ⟨q, hq, rfl⟩ := List.mem_map.mp hlocation
        exact (g.exact hl q hq).1 (of_decide_eq_true htype ▸ hm)
      rw [hplaces, hnone, List.append_nil]
      exact ⟨e, (g.adds.type? type).trans he, hconcerns, rfl⟩
    · obtain ⟨q, hq, rfl⟩ := List.mem_map.mp hm
      obtain ⟨e, he, hconcerns, -⟩ := g.placed q hq
      obtain ⟨hunattached, hexact⟩ := g.exact hl q hq
      have hnone : (l.target.locationsOf b.requests).filter (·.type = q.location.type) = [] := by
        refine List.filter_eq_nil_iff.mpr fun location hlocation htype => hunattached ?_
        exact of_decide_eq_true htype ▸ hb.mem_attached ha.target hlocation
      rw [hnone, List.nil_append, hexact e he]
      exact ⟨e, (g.adds.type? _).trans he, hconcerns, rfl⟩
  · rw [Breakpoint.gain_site]
    have hshared : b.site.Shared r.settings.sourceMatch l.target :=
      (g.shared hp).elim h.shared fun hs => hs
    simpa only [Site.Shared, g.adds.type?] using hshared

theorem Step.exact {s s' : Registry × Link} (h : Step s s') (ha : s.1.Accounted s.2.target)
    (hl : s.2.Reliable) (hexact : s.1.Exact s.2.target) : s'.1.Exact s'.2.target := by
  have hsound := (h.accounted ha).target
  have hfollows := h.follows ha
  cases h with
  | elapse he =>
    refine hexact.carry ha hsound hfollows.types rfl fun b hb => ⟨b, hb, rfl, fun q hq _ => ?_⟩
    exact ⟨q, he.requests ▸ hq, rfl, rfl⟩
  | skip | relist => exact hexact
  | enlist _ _ hatt hpending => exact hexact.enlist hatt hpending
  | @grant r l l' b news resolution g =>
    intro c hc
    rcases (ha.mem_update g.listed _).mp hc with rfl | ⟨hc, -⟩
    · exact g.exact_gain ha hl (hexact b g.listed)
    · refine (hexact c hc).carry hfollows.types (ha.target.locationsOf_keep hsound fun id hid => ?_)
      obtain ⟨q, hq, rfl, -⟩ := (ha.each c hc).request hid
      refine ⟨q, hq, rfl, q, ?_, rfl, rfl⟩
      rw [g.adds.requests]
      exact List.mem_append_left _ hq
  | count hits hb =>
    exact hexact.touch ha hsound hfollows.types hb rfl fun q hq => ⟨q, hq, rfl, rfl⟩
  | toggle hb _ ht =>
    refine hexact.touch ha hsound hfollows.types hb rfl fun q hq => ?_
    rw [ht]
    refine ⟨_, List.mem_map.mpr ⟨q, hq, rfl⟩, ?_, ?_⟩ <;> split <;> rfl
  | falter _ _ _ _ hrefused => exact absurd hl hrefused
  | @forget r l l' b gone hb hsub ht =>
    refine hexact.carry ha hsound hfollows.types rfl fun c hc => ?_
    obtain ⟨hc, hne⟩ := List.mem_filter.mp hc
    refine ⟨c, hc, rfl, fun q hq hm => ⟨q, ?_, rfl, rfl⟩⟩
    rw [ht]
    refine List.mem_filter.mpr ⟨hq, ?_⟩
    have hno : q.id ∉ gone := fun hg => by
      rw [ha.apart hc hb hm (hsub hg)] at hne
      simp at hne
    simpa using hno
  | clear => exact fun b hb => absurd hb List.not_mem_nil

/-- A target that answers at the end has answered all the time. -/
theorem Steps.exact {s s' : Registry × Link} (h : Steps s s') (ha : s.1.Accounted s.2.target)
    (hl : s'.2.Reliable) (hexact : s.1.Exact s.2.target) : s'.1.Exact s'.2.target := by
  induction h with
  | refl => exact hexact
  | tail hsteps hstep ih =>
    have hmid := Steps.accounted hsteps ha
    have hl' := (hstep.follows hmid).reliable hl
    exact hstep.exact hmid hl' (ih hl')

end Registry

end Debugger
