import Debugger.Proofs.History

/-!
The lists of waiting breakpoints, as they follow from the breakpoints. What a series of attempts
does to them.
-/

namespace Debugger

namespace Registry

/-- The lines that should be waiting. -/
def waitingLines (r : Registry) : List PendingLine :=
  r.breakpoints.flatMap Breakpoint.waitingLines

/-- The methods that should be waiting. -/
def waitingTypes (r : Registry) : List (String × BreakpointId) :=
  r.breakpoints.flatMap Breakpoint.waitingTypes

/-- What is asked for under each id. -/
def sites (r : Registry) : List (BreakpointId × Site) :=
  r.breakpoints.map fun b => (b.id, b.site)

/-- Exactly those breakpoints wait that are not fully attached. -/
structure Listed (r : Registry) : Prop where
  lines : r.pendingLines = r.waitingLines
  types : r.pendingTypes = r.waitingTypes

/-- The books are in order and the right breakpoints wait. -/
structure Sound (r : Registry) (t : Target) : Prop extends Accounted r t, Listed r

/-- The registry went through these steps, and the right breakpoints wait at the end. -/
structure Moves (s s' : Registry × Link) : Prop where
  steps : Steps s s'
  listed : s'.1.Listed

theorem Moves.sound {s s' : Registry × Link} (h : Moves s s') (hs : s.1.Sound s.2.target) :
    s'.1.Sound s'.2.target :=
  ⟨Steps.accounted h.steps hs.toAccounted, h.listed⟩

theorem Moves.follows {s s' : Registry × Link} (h : Moves s s') (hs : s.1.Sound s.2.target) :
    Follows s s' :=
  Steps.follows h.steps hs.toAccounted

theorem mem_sites {r : Registry} {id : BreakpointId} {site : Site} :
    (id, site) ∈ r.sites ↔ ∃ b ∈ r.breakpoints, b.id = id ∧ b.site = site := by
  simp [sites]

theorem mem_waitingLines {r : Registry} {p : PendingLine} : p ∈ r.waitingLines ↔
    ∃ b ∈ r.breakpoints, b.id = p.id ∧ b.site = .line p.file p.line ∧ b.resolution ≠ .resolved := by
  simp only [waitingLines, List.mem_flatMap, Breakpoint.mem_waitingLines]

theorem mem_waitingTypes {r : Registry} {type : String} {id : BreakpointId} :
    (type, id) ∈ r.waitingTypes ↔ ∃ b ∈ r.breakpoints, b.id = id ∧
      (∃ name params, b.site = .method type name params) ∧ b.resolution ≠ .resolved := by
  simp only [waitingTypes, List.mem_flatMap, Breakpoint.mem_waitingTypes]

/-- Lists that hold of each breakpoint at most one entry, under its id, have each id once. -/
theorem Accounted.flatMap_nodup {r : Registry} {t : Target} (h : r.Accounted t) {α : Type}
    (w : Breakpoint → List α) (key : α → BreakpointId)
    (hkey : ∀ b, ((w b).map key).Sublist [b.id]) : ((r.breakpoints.flatMap w).map key).Nodup := by
  have hsub (bs : List Breakpoint) : ((bs.flatMap w).map key).Sublist (bs.map (·.id)) := by
    induction bs with
    | nil => exact .slnil
    | cons b bs ih =>
      rw [List.flatMap_cons, List.map_append, List.map_cons, ← List.singleton_append]
      exact (hkey b).append ih
  exact (hsub r.breakpoints).nodup h.ids

theorem Accounted.waitingLines_nodup {r : Registry} {t : Target} (h : r.Accounted t) :
    (r.waitingLines.map (·.id)).Nodup := by
  refine h.flatMap_nodup Breakpoint.waitingLines (·.id) fun b => ?_
  unfold Breakpoint.waitingLines
  split
  · split
    · exact List.nil_sublist _
    · exact .refl _
  · exact List.nil_sublist _

theorem Accounted.waitingTypes_nodup {r : Registry} {t : Target} (h : r.Accounted t) :
    (r.waitingTypes.map (·.2)).Nodup := by
  refine h.flatMap_nodup Breakpoint.waitingTypes (·.2) fun b => ?_
  unfold Breakpoint.waitingTypes
  split
  · exact List.nil_sublist _
  · split
    · exact List.nil_sublist _
    · exact .refl _

/-- A breakpoint waits in one of the lists at most, and once. -/
theorem Accounted.waiting_apart {r : Registry} {t : Target} (h : r.Accounted t) {p : PendingLine}
    {type : String} (hp : p ∈ r.waitingLines) : (type, p.id) ∉ r.waitingTypes := by
  intro hw
  obtain ⟨b, hb, hid, hsite, -⟩ := mem_waitingLines.mp hp
  obtain ⟨c, hc, hci, ⟨name, params, hmethod⟩, -⟩ := mem_waitingTypes.mp hw
  rw [h.unique hc hb (hci.trans hid.symm), hsite] at hmethod
  contradiction

theorem Accounted.waitingLine_unique {r : Registry} {t : Target} (h : r.Accounted t)
    {p p' : PendingLine} (hp : p ∈ r.waitingLines) (hp' : p' ∈ r.waitingLines)
    (hid : p.id = p'.id) : p = p' := by
  obtain ⟨b, hb, hbi, hsite, -⟩ := mem_waitingLines.mp hp
  obtain ⟨c, hc, hci, hsite', -⟩ := mem_waitingLines.mp hp'
  rw [h.unique hc hb (hci.trans (hid.symm.trans hbi.symm)), hsite, Site.line.injEq] at hsite'
  obtain ⟨id, file, line⟩ := p
  obtain ⟨id', file', line'⟩ := p'
  simp_all

theorem Accounted.waitingType_unique {r : Registry} {t : Target} (h : r.Accounted t)
    {type type' : String} {id : BreakpointId} (hw : (type, id) ∈ r.waitingTypes)
    (hw' : (type', id) ∈ r.waitingTypes) : type = type' := by
  obtain ⟨b, hb, hbi, ⟨name, params, hsite⟩, -⟩ := mem_waitingTypes.mp hw
  obtain ⟨c, hc, hci, ⟨name', params', hsite'⟩, -⟩ := mem_waitingTypes.mp hw'
  rw [h.unique hc hb (hci.trans hbi.symm), hsite] at hsite'
  exact (Site.method.inj hsite').1

/-! ### One breakpoint changes -/

section Update

variable {r : Registry} {t : Target} (h : r.Accounted t) {b : Breakpoint} (hb : b ∈ r.breakpoints)
  {f : Breakpoint → Breakpoint} {α : Type} (w : Breakpoint → List α)

include h hb

theorem Accounted.flatMap_update (hf : w (f b) = w b) :
    (r.update b.id f).breakpoints.flatMap w = r.breakpoints.flatMap w := by
  rw [update, List.flatMap_map]
  refine List.flatMap_congr fun c hc => ?_
  by_cases he : c.id = b.id
  · rw [if_pos he, h.unique hc hb he, hf]
  · rw [if_neg he]

/-- What the lists hold of a breakpoint that waits no more is dropped. -/
theorem Accounted.flatMap_update_nil (hf : w (f b) = []) (key : α → BreakpointId)
    (hkey : ∀ c, ∀ a ∈ w c, key a = c.id) :
    (r.update b.id f).breakpoints.flatMap w =
      (r.breakpoints.flatMap w).filter fun a => key a ∉ [b.id] := by
  rw [update, List.flatMap_map, List.filter_flatMap]
  refine List.flatMap_congr fun c hc => ?_
  by_cases he : c.id = b.id
  · rw [if_pos he, h.unique hc hb he, hf]
    refine (List.filter_eq_nil_iff.mpr fun a ha => ?_).symm
    simpa using hkey b a ha
  · rw [if_neg he]
    refine (List.filter_eq_self.mpr fun a ha => ?_).symm
    simpa [hkey c a ha] using he

theorem Accounted.sites_update (hid : (f b).id = b.id) (hsite : (f b).site = b.site) :
    (r.update b.id f).sites = r.sites := by
  rw [sites, sites, update, List.map_map]
  refine List.map_congr_left fun c hc => ?_
  simp only [Function.comp_apply]
  by_cases he : c.id = b.id
  · rw [if_pos he, h.unique hc hb he, hid, hsite]
  · rw [if_neg he]

end Update

/-! ### Attempts -/

/-- Attempts to attach waiting breakpoints, after which these wait no more. The lists themselves
are as before. -/
structure Tried (r : Registry) (l : Link) (resolved : List BreakpointId) (r' : Registry)
    (l' : Link) : Prop where
  steps : Steps (r, l) (r', l')
  reliable : l.Reliable → l'.Reliable
  sites : r'.sites = r.sites
  pendingLines : r'.pendingLines = r.pendingLines
  pendingTypes : r'.pendingTypes = r.pendingTypes
  waitingLines : r'.waitingLines = r.waitingLines.filter (·.id ∉ resolved)
  waitingTypes : r'.waitingTypes = r.waitingTypes.filter (·.2 ∉ resolved)

namespace Tried

variable {r r' r'' : Registry} {l l' l'' : Link} {resolved more : List BreakpointId}

/-- Calls that change nothing. -/
theorem idle (r : Registry) (ht : l'.target = l.target) (hr : l'.refuses = l.refuses) :
    Tried r l [] r l' :=
  ⟨.single (.elapse (ht ▸ .refl _) hr), fun hl => hl.of_eq (ht ▸ hl.connected) hr, rfl, rfl, rfl,
    by simp, by simp⟩

theorem trans (h : Tried r l resolved r' l') (h' : Tried r' l' more r'' l'') :
    Tried r l (resolved ++ more) r'' l'' := by
  refine ⟨h.steps.trans h'.steps, fun hl => h'.reliable (h.reliable hl), h'.sites.trans h.sites,
    h'.pendingLines.trans h.pendingLines, h'.pendingTypes.trans h.pendingTypes, ?_, ?_⟩
  · rw [h'.waitingLines, h.waitingLines, List.filter_filter]
    simp [Bool.and_comm]
  · rw [h'.waitingTypes, h.waitingTypes, List.filter_filter]
    simp [Bool.and_comm]

theorem follows (h : Tried r l resolved r' l') (ha : r.Accounted l.target) :
    Follows (r, l) (r', l') :=
  Steps.follows h.steps ha

/-- The right breakpoints wait once those are taken off the lists that wait no more. -/
theorem listed (h : Tried r l resolved r' l') (hr : r.Listed) {s : Registry}
    (hbs : s.breakpoints = r'.breakpoints)
    (hlines : s.pendingLines = r.pendingLines.filter (·.id ∉ resolved))
    (htypes : s.pendingTypes = r.pendingTypes.filter (·.2 ∉ resolved)) : s.Listed := by
  constructor
  · rw [hlines, hr.lines, ← h.waitingLines, Registry.waitingLines, Registry.waitingLines, hbs]
  · rw [htypes, hr.types, ← h.waitingTypes, Registry.waitingTypes, Registry.waitingTypes, hbs]

end Tried

section Grant

variable {r : Registry} {l l' : Link} {b : Breakpoint} {news : List Request}
  {resolution : Resolution} (ha : r.Accounted l.target) (g : r.Grants l b news resolution l')

include ha g

/-- A breakpoint that is fully attached waits no more. -/
theorem Grants.tried_resolved (hres : resolution = .resolved) :
    Tried r l [b.id] (r.grant b.id (news.map Request.attachment) resolution) l' := by
  subst hres
  refine ⟨.single (.grant g), g.adds.reliable, ?_, rfl, rfl, ?_, ?_⟩
  · exact ha.sites_update g.listed (Breakpoint.gain_id ..) (Breakpoint.gain_site ..)
  · refine ha.flatMap_update_nil g.listed _ ?_ (fun p : PendingLine => p.id) ?_
    · unfold Breakpoint.waitingLines
      split <;> rfl
    · exact fun c p hp => (Breakpoint.mem_waitingLines.mp hp).1.symm
  · refine ha.flatMap_update_nil g.listed _ ?_ (fun p : String × BreakpointId => p.2) ?_
    · unfold Breakpoint.waitingTypes
      split <;> rfl
    · exact fun c p hp => (Breakpoint.mem_waitingTypes.mp hp).1.symm

/-- A breakpoint that is attached no further than before goes on waiting if it did. -/
theorem Grants.tried_same (hres : resolution = b.resolution) :
    Tried r l [] (r.grant b.id (news.map Request.attachment) resolution) l' := by
  let f : Breakpoint → Breakpoint := (·.gain (news.map Request.attachment) resolution)
  have hid : (f b).id = b.id := Breakpoint.gain_id ..
  have hsite : (f b).site = b.site := Breakpoint.gain_site ..
  refine ⟨.single (.grant g), g.adds.reliable, ha.sites_update g.listed hid hsite, rfl, rfl, ?_, ?_⟩
  · rw [List.filter_eq_self.mpr (by simp)]
    exact ha.flatMap_update g.listed _ (Breakpoint.waitingLines_congr hid hsite hres)
  · rw [List.filter_eq_self.mpr (by simp)]
    exact ha.flatMap_update g.listed _ (Breakpoint.waitingTypes_congr hid hsite hres)

end Grant

/-- Attaching without a say on how far leaves that as it is. -/
theorem Accounted.attach_eq_grant {r : Registry} {t : Target} (h : r.Accounted t) {b : Breakpoint}
    (hb : b ∈ r.breakpoints) (as : List Attachment) :
    r.attach b.id as = r.grant b.id as b.resolution := by
  have hbs : (r.breakpoints.map fun c => if c.id = b.id then c.attach as else c) =
      r.breakpoints.map fun c => if c.id = b.id then c.gain as b.resolution else c := by
    refine List.map_congr_left fun c hc => ?_
    by_cases he : c.id = b.id
    · rw [if_pos he, if_pos he, h.unique hc hb he, Breakpoint.gain, Breakpoint.attach_eq]
    · rw [if_neg he, if_neg he]
  rw [attach, Registry.grant, update, update, hbs]

theorem update_attach_eq_grant (r : Registry) (id : BreakpointId) (as : List Attachment)
    (resolution : Resolution) :
    (r.attach id as).update id ({ · with resolution }) = r.grant id as resolution := by
  have hbs : ((r.breakpoints.map fun c => if c.id = id then c.attach as else c).map fun c =>
      if c.id = id then { c with resolution } else c) =
      r.breakpoints.map fun c => if c.id = id then c.gain as resolution else c := by
    rw [List.map_map]
    refine List.map_congr_left fun c _ => ?_
    simp only [Function.comp_apply]
    by_cases he : c.id = id
    · have hid : (c.attach as).id = id := by rw [Breakpoint.attach_eq, he]
      rw [if_pos he, if_pos he, if_pos hid, Breakpoint.gain]
    · rw [if_neg he, if_neg he, if_neg he]
  simp only [attach, grant, update, own] at hbs ⊢
  rw [hbs]

end Registry

end Debugger
