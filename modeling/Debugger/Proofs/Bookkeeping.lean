import Mathlib.Logic.Relation
import Debugger.Proofs.Breakpoints

/-!
The books of a registry: whose request is whose. The steps of which its operations consist, and
that each step keeps the books in order.
-/

namespace Debugger

namespace Registry

/-- Hands new requests to a breakpoint, which is then attached as far as told. -/
def grant (r : Registry) (id : BreakpointId) (as : List Attachment) (resolution : Resolution) :
    Registry :=
  (r.update id (·.gain as resolution)).own id as

/-- Takes up a breakpoint under the next id. -/
def enlist (r : Registry) (b : Breakpoint) : Registry :=
  { r with nextId := r.nextId + 1, breakpoints := r.breakpoints ++ [b] }

/-- Forgets a breakpoint and whom its requests belonged to. -/
def forget (r : Registry) (b : Breakpoint) : Registry :=
  { r with
    breakpoints := r.breakpoints.filter (·.id ≠ b.id)
    owners := r.owners.filter fun (request, _) => !b.requests.contains request }

/-- Ids are used once, the target backs every breakpoint, and the owners are told exactly. -/
structure Accounted (r : Registry) (t : Target) : Prop where
  target : t.Sound
  ids : (r.breakpoints.map (·.id)).Nodup
  issued : ∀ b ∈ r.breakpoints, b.id < r.nextId
  each : ∀ b ∈ r.breakpoints, b.Sound t
  keys : (r.owners.map (·.1)).Nodup
  owners : ∀ request id, (request, id) ∈ r.owners ↔
    ∃ b ∈ r.breakpoints, b.id = id ∧ request ∈ b.requests

/-- Owners of requests that have none yet are simply added. -/
theorem own_of_fresh (r : Registry) (id : BreakpointId) (as : List Attachment)
    (hnew : ∀ a ∈ as, a.request ∉ r.owners.map (·.1)) (hnodup : (as.map (·.request)).Nodup) :
    r.own id as = { r with owners := r.owners ++ as.map fun a => (a.request, id) } := by
  induction as generalizing r with
  | nil => simp [own]
  | cons a as ih =>
    obtain ⟨ha, hnodup⟩ := List.nodup_cons.mp hnodup
    have hkeep : r.owners.filter (fun o => o.1 ≠ a.request) = r.owners := by
      refine List.filter_eq_self.mpr fun o ho => ?_
      have : o.1 ≠ a.request := fun he =>
        hnew a (by simp) (he ▸ List.mem_map.mpr ⟨o, ho, rfl⟩)
      simpa using this
    let noted : Registry :=
      { r with owners := r.owners.filter (fun o => o.1 ≠ a.request) ++ [(a.request, id)] }
    have hnoted : noted = { r with owners := r.owners ++ [(a.request, id)] } := by
      simp only [noted, hkeep]
    have hstep : r.own id (a :: as) = noted.own id as := rfl
    rw [hstep, hnoted, ih]
    · simp
    · intro c hc
      simp only [List.map_append, List.mem_append, List.map_cons, List.map_nil,
        List.mem_singleton, not_or]
      exact ⟨hnew c (List.mem_cons_of_mem _ hc), fun he => ha (List.mem_map.mpr ⟨c, hc, he⟩)⟩
    · exact hnodup

namespace Accounted

variable {r : Registry} {t t' : Target}

theorem unique (h : r.Accounted t) {b c : Breakpoint} (hb : b ∈ r.breakpoints)
    (hc : c ∈ r.breakpoints) (hid : b.id = c.id) : b = c :=
  List.inj_on_of_nodup_map h.ids hb hc hid

theorem find?_eq_some (h : r.Accounted t) {id : BreakpointId} {b : Breakpoint} :
    r.find? id = some b ↔ b ∈ r.breakpoints ∧ b.id = id := by
  constructor
  · intro hf
    exact ⟨List.mem_of_find?_eq_some hf, by simpa using List.find?_some hf⟩
  · rintro ⟨hb, rfl⟩
    cases hf : r.find? b.id with
    | none => simpa using List.find?_eq_none.mp hf b hb
    | some c =>
      have hc : c.id = b.id := by simpa using List.find?_some hf
      rw [h.unique (List.mem_of_find?_eq_some hf) hb hc]

theorem find?_eq_none {id : BreakpointId} :
    r.find? id = none ↔ ∀ b ∈ r.breakpoints, b.id ≠ id := by
  simp [find?]

theorem owner?_eq_some (h : r.Accounted t) {request : RequestId} {id : BreakpointId} :
    r.owner? request = some id ↔ ∃ b ∈ r.breakpoints, b.id = id ∧ request ∈ b.requests := by
  rw [← h.owners, owner?, List.lookup_eq_some_iff]
  constructor
  · rintro ⟨before, after, he, -⟩
    rw [he]
    simp
  · intro hm
    obtain ⟨before, after, he⟩ := List.append_of_mem hm
    refine ⟨before, after, he, fun o ho => ?_⟩
    have hk := h.keys
    rw [he, List.map_append, List.map_cons] at hk
    have hne := (List.nodup_append.mp hk).2.2 o.1 (List.mem_map.mpr ⟨o, ho, rfl⟩) request (by simp)
    simpa using hne.symm

/-- No request belongs to two breakpoints. -/
theorem apart (h : r.Accounted t) {b c : Breakpoint} (hb : b ∈ r.breakpoints)
    (hc : c ∈ r.breakpoints) {request : RequestId} (hrb : request ∈ b.requests)
    (hrc : request ∈ c.requests) : b = c := by
  have ho := h.owner?_eq_some.mpr ⟨b, hb, rfl, hrb⟩
  rw [h.owner?_eq_some.mpr ⟨c, hc, rfl, hrc⟩] at ho
  exact h.unique hb hc (Option.some.inj ho).symm

/-- Requests with an owner are at the target. -/
theorem known (h : r.Accounted t) {request : RequestId} (ho : request ∈ r.owners.map (·.1)) :
    ∃ q ∈ t.requests, q.id = request := by
  obtain ⟨⟨request, id⟩, hown, rfl⟩ := List.mem_map.mp ho
  obtain ⟨b, hb, -, hm⟩ := (h.owners request id).mp hown
  obtain ⟨q, hq, hid, -⟩ := (h.each b hb).request hm
  exact ⟨q, hq, hid⟩

theorem owner_le (h : r.Accounted t) {request : RequestId} (ho : request ∈ r.owners.map (·.1)) :
    request ≤ t.lastRequest := by
  obtain ⟨q, hq, rfl⟩ := h.known ho
  exact h.target.request_le hq

/-! ### Steps -/

/-- The requests of breakpoints may be switched at the target, and others may come and go. -/
theorem retarget (h : r.Accounted t) (ht : t'.Sound) (f : Request → Request)
    (hid : ∀ q, (f q).id = q.id) (hloc : ∀ q, (f q).location = q.location)
    (hkeep : ∀ q ∈ t.requests, (∃ b ∈ r.breakpoints, q.id ∈ b.requests) → f q ∈ t'.requests) :
    r.Accounted t' :=
  ⟨ht, h.ids, h.issued, fun b hb => (h.each b hb).retarget f hid hloc fun q hq hm =>
    hkeep q hq ⟨b, hb, hm⟩, h.keys, h.owners⟩

theorem keep (h : r.Accounted t) (ht : t'.Sound)
    (hkeep : ∀ q ∈ t.requests, (∃ b ∈ r.breakpoints, q.id ∈ b.requests) → q ∈ t'.requests) :
    r.Accounted t' :=
  h.retarget ht (fun q => q) (fun _ => rfl) (fun _ => rfl) hkeep

theorem evolve (h : r.Accounted t) (he : t.Evolves t') : r.Accounted t' :=
  h.keep (he.sound h.target) fun q hq _ => by rwa [he.requests]

theorem switch (h : r.Accounted t) (ids : List RequestId) (enabled : Bool) :
    r.Accounted (t.switch ids enabled) := by
  refine h.retarget (h.target.switch ids enabled)
    (fun q => if q.id ∈ ids then { q with enabled } else q) ?_ ?_ ?_
  · intro q
    split <;> rfl
  · intro q
    split <;> rfl
  · intro q hq _
    exact List.mem_map.mpr ⟨q, hq, rfl⟩

theorem skip (h : r.Accounted t) : ({ r with nextId := r.nextId + 1 } : Registry).Accounted t :=
  ⟨h.target, h.ids, fun b hb => Nat.lt_succ_of_lt (h.issued b hb), h.each, h.keys, h.owners⟩

theorem enlist (h : r.Accounted t) {b : Breakpoint} (hid : b.id = r.nextId)
    (hreq : b.requests = []) (hb : b.Sound t) : (r.enlist b).Accounted t := by
  have hnew : ∀ c ∈ r.breakpoints, c.id ≠ b.id := fun c hc he =>
    Nat.lt_irrefl _ (hid ▸ he ▸ h.issued c hc)
  refine ⟨h.target, ?_, ?_, ?_, h.keys, ?_⟩
  · simp only [Registry.enlist, List.map_append, List.map_cons, List.map_nil]
    refine List.nodup_append.mpr ⟨h.ids, by simp, ?_⟩
    intro n hn m hm he
    obtain ⟨c, hc, rfl⟩ := List.mem_map.mp hn
    exact hnew c hc (he.trans (List.mem_singleton.mp hm))
  · intro c hc
    rcases List.mem_append.mp hc with hc | hc
    · exact Nat.lt_succ_of_lt (h.issued c hc)
    · rw [List.mem_singleton.mp hc, hid]
      exact Nat.lt_succ_self _
  · intro c hc
    rcases List.mem_append.mp hc with hc | hc
    · exact h.each c hc
    · rwa [List.mem_singleton.mp hc]
  · intro request id
    rw [show (r.enlist b).owners = r.owners from rfl, h.owners]
    constructor
    · rintro ⟨c, hc, hci, hm⟩
      exact ⟨c, List.mem_append_left _ hc, hci, hm⟩
    · rintro ⟨c, hc, hci, hm⟩
      rcases List.mem_append.mp hc with hc | hc
      · exact ⟨c, hc, hci, hm⟩
      · rw [List.mem_singleton.mp hc, hreq] at hm
        contradiction

theorem mem_update (h : r.Accounted t) {b c : Breakpoint} (hb : b ∈ r.breakpoints)
    (f : Breakpoint → Breakpoint) : c ∈ (r.update b.id f).breakpoints ↔
      c = f b ∨ c ∈ r.breakpoints ∧ c.id ≠ b.id := by
  refine List.mem_map.trans ⟨?_, ?_⟩
  · rintro ⟨d, hd, rfl⟩
    by_cases he : d.id = b.id
    · rw [if_pos he, h.unique hd hb he]
      exact .inl rfl
    · rw [if_neg he]
      exact .inr ⟨hd, he⟩
  · rintro (rfl | ⟨hc, hne⟩)
    · exact ⟨b, hb, if_pos rfl⟩
    · exact ⟨c, hc, if_neg hne⟩

theorem update_ids (h : r.Accounted t) {b : Breakpoint} (hb : b ∈ r.breakpoints)
    {f : Breakpoint → Breakpoint} (hid : (f b).id = b.id) :
    (r.update b.id f).breakpoints.map (·.id) = r.breakpoints.map (·.id) := by
  rw [update, List.map_map]
  refine List.map_congr_left fun c hc => ?_
  by_cases he : c.id = b.id
  · simp only [Function.comp_apply, if_pos he]
    rw [h.unique hc hb he, hid]
  · simp only [Function.comp_apply, if_neg he]

/-- One breakpoint changes, and may take over requests that nobody has. -/
theorem replace (h : r.Accounted t) (ht : t'.Sound) (hreqs : t.requests ⊆ t'.requests)
    {b : Breakpoint} (hb : b ∈ r.breakpoints) {f : Breakpoint → Breakpoint}
    (hid : (f b).id = b.id) (hsound : (f b).Sound t') {news : List RequestId}
    (hreq : (f b).requests = b.requests ++ news) (hnodup : news.Nodup)
    (hfresh : ∀ n ∈ news, n ∉ r.owners.map (·.1)) {r' : Registry} (hnext : r'.nextId = r.nextId)
    (hbs : r'.breakpoints = (r.update b.id f).breakpoints)
    (howners : r'.owners = r.owners ++ news.map fun n => (n, b.id)) : r'.Accounted t' := by
  have hmem {c : Breakpoint} := hbs ▸ h.mem_update (c := c) hb f
  refine ⟨ht, ?_, ?_, ?_, ?_, ?_⟩
  · rw [hbs, h.update_ids hb hid]
    exact h.ids
  · intro c hc
    rw [hnext]
    rcases hmem.mp hc with rfl | ⟨hc, -⟩
    · rw [hid]
      exact h.issued b hb
    · exact h.issued c hc
  · intro c hc
    rcases hmem.mp hc with rfl | ⟨hc, -⟩
    · exact hsound
    · exact (h.each c hc).keep fun q hq _ => hreqs hq
  · rw [howners, List.map_append, List.map_map]
    refine List.nodup_append.mpr ⟨h.keys, by simpa [Function.comp_def] using hnodup, ?_⟩
    rintro n hn m hm rfl
    exact hfresh n (by simpa using hm) hn
  · intro request id
    rw [howners, List.mem_append, h.owners]
    constructor
    · rintro (⟨c, hc, hci, hm⟩ | hnew)
      · by_cases he : c.id = b.id
        · rw [h.unique hc hb he] at hci hm
          exact ⟨f b, hmem.mpr (.inl rfl), hid.trans hci, hreq ▸ List.mem_append_left _ hm⟩
        · exact ⟨c, hmem.mpr (.inr ⟨hc, he⟩), hci, hm⟩
      · obtain ⟨n, hn, he⟩ := List.mem_map.mp hnew
        obtain ⟨rfl, rfl⟩ := Prod.mk.inj he
        exact ⟨f b, hmem.mpr (.inl rfl), hid, hreq ▸ List.mem_append_right _ hn⟩
    · rintro ⟨c, hc, hci, hm⟩
      rcases hmem.mp hc with rfl | ⟨hc, -⟩
      · rw [hid] at hci
        rcases List.mem_append.mp (hreq ▸ hm) with hm | hm
        · exact .inl ⟨b, hb, hci, hm⟩
        · exact .inr (List.mem_map.mpr ⟨request, hm, by rw [hci]⟩)
      · exact .inl ⟨c, hc, hci, hm⟩

/-- Whether a breakpoint is enabled and how often it was hit is not in the books. -/
theorem touch (h : r.Accounted t) {b : Breakpoint} (hb : b ∈ r.breakpoints)
    {f : Breakpoint → Breakpoint}
    (hf : f b = { b with enabled := (f b).enabled, hits := (f b).hits }) :
    (r.update b.id f).Accounted t := by
  have hreq : (f b).requests = b.requests ++ [] := by rw [hf, List.append_nil]
  refine h.replace h.target (List.Subset.refl _) hb ?_ ?_ hreq .nil (by simp) rfl rfl
    (by simp [update])
  · rw [hf]
  · rw [hf]
    exact (h.each b hb).of_same rfl rfl rfl rfl

theorem forget (h : r.Accounted t) {b : Breakpoint} (hb : b ∈ r.breakpoints)
    {gone : List RequestId} (hgone : gone ⊆ b.requests) :
    (r.forget b).Accounted (t.without gone) := by
  have hother : ∀ c ∈ r.breakpoints, c.id ≠ b.id → ∀ request ∈ c.requests,
      request ∉ b.requests := by
    intro c hc hne request hm hmb
    exact hne (congrArg Breakpoint.id (h.apart hc hb hm hmb))
  refine ⟨h.target.without gone, ?_, ?_, ?_, ?_, ?_⟩
  · exact (List.filter_sublist.map _).nodup h.ids
  · exact fun c hc => h.issued c (List.mem_filter.mp hc).1
  · intro c hc
    obtain ⟨hc, hne⟩ := List.mem_filter.mp hc
    refine (h.each c hc).keep fun q hq hm => List.mem_filter.mpr ⟨hq, ?_⟩
    have : q.id ∉ gone := fun hg => hother c hc (by simpa using hne) q.id hm (hgone hg)
    simpa using this
  · exact (List.filter_sublist.map _).nodup h.keys
  · intro request id
    simp only [Registry.forget, List.mem_filter, h.owners]
    constructor
    · rintro ⟨⟨c, hc, rfl, hm⟩, hno⟩
      refine ⟨c, ⟨hc, ?_⟩, rfl, hm⟩
      have hne : c.id ≠ b.id := by
        intro he
        rw [h.unique hc hb he] at hm
        simp [hm] at hno
      simpa using hne
    · rintro ⟨c, ⟨hc, hne⟩, rfl, hm⟩
      refine ⟨⟨c, hc, rfl, hm⟩, ?_⟩
      simpa using hother c hc (by simpa using hne) request hm

theorem empty (ht : t.Sound) {r : Registry} (hb : r.breakpoints = []) (ho : r.owners = []) :
    r.Accounted t := by
  refine ⟨ht, ?_, ?_, ?_, ?_, ?_⟩ <;> simp [hb, ho]

end Accounted

/-- New requests that a breakpoint of the registry may take over. They lie where it asks for, and
a line gets none in a type in which it has one. Where no call fails, they are all that there are to
get in their types, and these are new to the breakpoint. -/
structure Grants (r : Registry) (l : Link) (b : Breakpoint) (news : List Request)
    (resolution : Resolution) (l' : Link) : Prop where
  listed : b ∈ r.breakpoints
  adds : l.Adds l' news
  nonempty : news ≠ []
  switched : l.Reliable → ∀ q ∈ news, q.enabled = b.enabled
  placed : ∀ q ∈ news, ∃ e, l.target.type? q.location.type = some e ∧
    b.site.Concerns r.settings.sourceMatch e ∧ b.site.Holds e q.location
  apart : b.site.isLine = true → (b.attached ++ news.map (·.location.type)).Nodup
  exact : l.Reliable → ∀ q ∈ news, q.location.type ∉ b.attached ∧
    ∀ e, l.target.type? q.location.type = some e →
      (news.map (·.location)).filter (·.type = q.location.type) = b.site.places e
  shared : resolution = .partly →
    b.resolution = .partly ∨ b.site.Shared r.settings.sourceMatch l.target
  attached : resolution ≠ .pending
  method : b.site.isLine = false → resolution ≠ .partly
  resolved : b.resolution = .resolved → resolution = .resolved

theorem Grants.own_eq {r : Registry} {l l' : Link} {b : Breakpoint} {news : List Request}
    {resolution : Resolution} (g : r.Grants l b news resolution l') (h : r.Accounted l.target) :
    (r.grant b.id (news.map Request.attachment) resolution).owners =
      r.owners ++ news.map fun q => (q.id, b.id) := by
  rw [grant, own_of_fresh]
  · simp [update, Function.comp_def, Request.attachment]
  · intro a ha hm
    obtain ⟨q, hq, rfl⟩ := List.mem_map.mp ha
    exact Nat.not_lt_of_le (h.owner_le hm) (g.adds.fresh hq).1
  · rw [Request.attachments_requests]
    exact g.adds.nodup

theorem Accounted.grant {r : Registry} {l l' : Link} {b : Breakpoint} {news : List Request}
    {resolution : Resolution} (h : r.Accounted l.target) (g : r.Grants l b news resolution l') :
    (r.grant b.id (news.map Request.attachment) resolution).Accounted l'.target := by
  refine h.replace (g.adds.sound h.target) ?_ g.listed (Breakpoint.gain_id ..)
    ((h.each b g.listed).gain h.target g.adds g.nonempty g.apart g.attached g.method)
    (by rw [Breakpoint.gain_requests, Request.attachments_requests]) g.adds.nodup ?_ rfl rfl ?_
  · rw [g.adds.requests]
    exact List.subset_append_left ..
  · intro n hn hm
    obtain ⟨q, hq, rfl⟩ := List.mem_map.mp hn
    exact Nat.not_lt_of_le (h.owner_le hm) (g.adds.fresh hq).1
  · rw [g.own_eq h, List.map_map]
    rfl

/-! ### All steps -/

/-- What the operations of a registry consist of, and what happens to its target in between. -/
inductive Step : Registry × Link → Registry × Link → Prop
  | elapse {r : Registry} {l l' : Link} (evolves : l.target.Evolves l'.target)
      (refuses : l'.refuses = l.refuses) : Step (r, l) (r, l')
  | skip {r : Registry} {l : Link} : Step (r, l) ({ r with nextId := r.nextId + 1 }, l)
  | enlist {r : Registry} {l : Link} {b : Breakpoint} (id : b.id = r.nextId)
      (requests : b.requests = []) (attached : b.attached = [])
      (pending : b.resolution = .pending) : Step (r, l) (r.enlist b, l)
  | grant {r : Registry} {l l' : Link} {b : Breakpoint} {news : List Request}
      {resolution : Resolution} (grants : r.Grants l b news resolution l') :
      Step (r, l) (r.grant b.id (news.map Request.attachment) resolution, l')
  | count {r : Registry} {l : Link} {b : Breakpoint} (hits : Nat) (listed : b ∈ r.breakpoints) :
      Step (r, l) (r.update b.id fun _ => { b with hits }, l)
  /-- All requests of a breakpoint are switched with it, unless calls were refused. -/
  | toggle {r : Registry} {l l' : Link} {b : Breakpoint} {enabled : Bool} {done : List RequestId}
      (listed : b ∈ r.breakpoints) (part : done ⊆ b.requests)
      (target : l'.target = l.target.switch done enabled) (refuses : l'.refuses = l.refuses)
      (whole : l.Reliable → done = b.requests) :
      Step (r, l) (r.update b.id ({ · with enabled }), l')
  /-- Switching ended early. -/
  | falter {r : Registry} {l l' : Link} {b : Breakpoint} {enabled : Bool} {done : List RequestId}
      (listed : b ∈ r.breakpoints) (part : done ⊆ b.requests)
      (target : l'.target = l.target.switch done enabled) (refuses : l'.refuses = l.refuses)
      (refused : ¬ l.Reliable) : Step (r, l) (r, l')
  /-- All requests of a breakpoint are deleted, unless calls were refused. -/
  | forget {r : Registry} {l l' : Link} {b : Breakpoint} {gone : List RequestId}
      (listed : b ∈ r.breakpoints) (part : gone ⊆ b.requests)
      (target : l'.target = l.target.without gone) (refuses : l'.refuses = l.refuses)
      (whole : l.Reliable → gone = b.requests) : Step (r, l) (r.forget b, l')
  | clear {r : Registry} {l l' : Link} {gone : List RequestId}
      (part : gone ⊆ r.owners.map (·.1)) (target : l'.target = l.target.without gone)
      (refuses : l'.refuses = l.refuses) (whole : l.Reliable → gone = r.owners.map (·.1)) :
      Step (r, l) ({ settings := r.settings, nextId := r.nextId }, l')
  /-- Which breakpoints wait is not in the books. -/
  | relist {r : Registry} {l : Link} (lines : List PendingLine)
      (types : List (String × BreakpointId)) :
      Step (r, l) ({ r with pendingLines := lines, pendingTypes := types }, l)

abbrev Steps : Registry × Link → Registry × Link → Prop :=
  Relation.ReflTransGen Step

theorem Step.accounted {s s' : Registry × Link} (h : Step s s') (ha : s.1.Accounted s.2.target) :
    s'.1.Accounted s'.2.target := by
  cases h with
  | elapse he => exact ha.evolve he
  | skip => exact ha.skip
  | enlist hid hreq hatt hres => exact ha.enlist hid hreq (Breakpoint.sound_of_empty hreq hatt hres)
  | grant g => exact ha.grant g
  | count hits hb => exact ha.touch hb rfl
  | toggle hb _ ht =>
    rw [ht]
    exact (ha.switch _ _).touch hb rfl
  | falter _ _ ht =>
    rw [ht]
    exact ha.switch _ _
  | forget hb hsub ht =>
    rw [ht]
    exact ha.forget hb hsub
  | clear _ ht =>
    rw [ht]
    exact .empty (ha.target.without _) rfl rfl
  | relist => exact ⟨ha.target, ha.ids, ha.issued, ha.each, ha.keys, ha.owners⟩

theorem Steps.accounted {s s' : Registry × Link} (h : Steps s s')
    (ha : s.1.Accounted s.2.target) : s'.1.Accounted s'.2.target := by
  induction h with
  | refl => exact ha
  | tail _ hstep ih => exact hstep.accounted ih

end Registry

end Debugger
