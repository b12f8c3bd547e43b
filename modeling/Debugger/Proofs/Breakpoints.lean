import Debugger.Proofs.Attaching

/-!
One breakpoint and its requests: how it takes over new ones, where it waits, and how the target
backs it.
-/

namespace Debugger

namespace Breakpoint

/-- Takes over new requests, and is then attached as far as told. -/
def gain (b : Breakpoint) (as : List Attachment) (resolution : Resolution) : Breakpoint :=
  { b.attach as with resolution }

theorem attach_eq (b : Breakpoint) (as : List Attachment) :
    b.attach as = { b with
      requests := b.requests ++ as.map (·.request)
      attached := (b.attach as).attached } := by
  induction as generalizing b with
  | nil => simp [attach]
  | cons a as ih =>
    have hstep : b.attach (a :: as) = (b.take a).attach as := rfl
    rw [hstep, ih]
    simp [take]

theorem mem_attach_attached (b : Breakpoint) (as : List Attachment) {type : TypeId} :
    type ∈ (b.attach as).attached ↔ type ∈ b.attached ∨ type ∈ as.map (·.type) := by
  induction as generalizing b with
  | nil => simp [attach]
  | cons a as ih =>
    have hstep : b.attach (a :: as) = (b.take a).attach as := rfl
    have htake : type ∈ (b.take a).attached ↔ type ∈ b.attached ∨ type = a.type := by
      simp only [take]
      split
      · rename_i hm
        exact ⟨.inl, fun h => h.elim (fun h => h) fun he => he ▸ hm⟩
      · simp
    rw [hstep, ih, htake, List.map_cons, List.mem_cons, or_assoc]

/-- Types that are all new are simply added. -/
theorem attach_attached_of_nodup (b : Breakpoint) (as : List Attachment)
    (h : (b.attached ++ as.map (·.type)).Nodup) :
    (b.attach as).attached = b.attached ++ as.map (·.type) := by
  induction as generalizing b with
  | nil => simp [attach]
  | cons a as ih =>
    have hstep : b.attach (a :: as) = (b.take a).attach as := rfl
    have hnew : a.type ∉ b.attached := by
      intro hm
      exact (List.nodup_append.mp h).2.2 a.type hm a.type (by simp) rfl
    have htake : (b.take a).attached = b.attached ++ [a.type] := by simp only [take, if_neg hnew]
    rw [hstep, ih (b.take a) (by rw [htake]; simpa using h), htake]
    simp

variable (b : Breakpoint) (as : List Attachment) (resolution : Resolution)

@[simp] theorem gain_id : (b.gain as resolution).id = b.id := by rw [gain, attach_eq]

@[simp] theorem gain_site : (b.gain as resolution).site = b.site := by rw [gain, attach_eq]

@[simp] theorem gain_enabled : (b.gain as resolution).enabled = b.enabled := by
  rw [gain, attach_eq]

@[simp] theorem gain_resolution : (b.gain as resolution).resolution = resolution := rfl

@[simp] theorem gain_attached : (b.gain as resolution).attached = (b.attach as).attached := rfl

@[simp] theorem gain_requests :
    (b.gain as resolution).requests = b.requests ++ as.map (·.request) := by
  rw [gain, attach_eq]

/-! ### Waiting -/

/-- What the list of waiting lines holds of the breakpoint. -/
def waitingLines (b : Breakpoint) : List PendingLine :=
  match b.site with
  | .line file line => if b.resolution = .resolved then [] else [⟨b.id, file, line⟩]
  | .method .. => []

/-- What the list of waiting methods holds of the breakpoint. -/
def waitingTypes (b : Breakpoint) : List (String × BreakpointId) :=
  match b.site with
  | .line .. => []
  | .method type .. => if b.resolution = .resolved then [] else [(type, b.id)]

variable {b}

theorem mem_waitingLines {p : PendingLine} : p ∈ b.waitingLines ↔
    b.id = p.id ∧ b.site = .line p.file p.line ∧ b.resolution ≠ .resolved := by
  obtain ⟨id, file, line⟩ := p
  unfold waitingLines
  split
  · rename_i f n hsite
    split
    · rename_i hres
      simp [hres]
    · rename_i hres
      simp only [List.mem_singleton, PendingLine.mk.injEq, hsite, Site.line.injEq]
      exact ⟨fun ⟨hi, hf, hn⟩ => ⟨hi.symm, ⟨hf.symm, hn.symm⟩, hres⟩,
        fun ⟨hi, ⟨hf, hn⟩, _⟩ => ⟨hi.symm, hf.symm, hn.symm⟩⟩
  · rename_i hsite
    simp [hsite]

theorem mem_waitingTypes {type : String} {id : BreakpointId} : (type, id) ∈ b.waitingTypes ↔
    b.id = id ∧ (∃ name params, b.site = .method type name params) ∧ b.resolution ≠ .resolved := by
  unfold waitingTypes
  split
  · rename_i hsite
    simp [hsite]
  · rename_i owner name params hsite
    split
    · rename_i hres
      simp [hres]
    · rename_i hres
      simp only [List.mem_singleton, Prod.mk.injEq, hsite, Site.method.injEq]
      exact ⟨fun ⟨ht, hi⟩ => ⟨hi.symm, ⟨name, params, ht.symm, rfl, rfl⟩, hres⟩,
        fun ⟨hi, ⟨_, _, ht, _, _⟩, _⟩ => ⟨ht.symm, hi.symm⟩⟩

theorem waitingLines_congr {b' : Breakpoint} (hid : b'.id = b.id) (hsite : b'.site = b.site)
    (hres : b'.resolution = b.resolution) : b'.waitingLines = b.waitingLines := by
  simp only [waitingLines, hid, hsite, hres]

theorem waitingTypes_congr {b' : Breakpoint} (hid : b'.id = b.id) (hsite : b'.site = b.site)
    (hres : b'.resolution = b.resolution) : b'.waitingTypes = b.waitingTypes := by
  simp only [waitingTypes, hid, hsite, hres]

/-! ### Backing -/

/-- The target holds these requests, in this order, for the breakpoint. A line has at most one of
them in a type. -/
structure Backed (b : Breakpoint) (t : Target) (qs : List Request) : Prop where
  there : ∀ q ∈ qs, q ∈ t.requests
  requests : b.requests = qs.map (·.id)
  distinct : (qs.map (·.id)).Nodup
  types : ∀ type, type ∈ b.attached ↔ type ∈ qs.map (·.location.type)
  line : b.site.isLine = true →
    b.attached = qs.map (·.location.type) ∧ (qs.map (·.location.type)).Nodup

/-- What the registry says of a breakpoint is so at the target. -/
structure Sound (b : Breakpoint) (t : Target) : Prop where
  backed : ∃ qs, b.Backed t qs
  pending : b.resolution = .pending ↔ b.requests = []
  method : b.site.isLine = false → b.resolution ≠ .partly

variable {t t' : Target}

theorem Sound.request (h : b.Sound t) {id : RequestId} (hid : id ∈ b.requests) :
    ∃ q ∈ t.requests, q.id = id ∧ q.location.type ∈ b.attached := by
  obtain ⟨qs, hqs⟩ := h.backed
  rw [hqs.requests] at hid
  obtain ⟨q, hq, rfl⟩ := List.mem_map.mp hid
  exact ⟨q, hqs.there q hq, rfl, (hqs.types _).mpr (List.mem_map.mpr ⟨q, hq, rfl⟩)⟩

theorem Sound.type (h : b.Sound t) {type : TypeId} (ht : type ∈ b.attached) :
    ∃ q ∈ t.requests, q.id ∈ b.requests ∧ q.location.type = type := by
  obtain ⟨qs, hqs⟩ := h.backed
  obtain ⟨q, hq, hqt⟩ := List.mem_map.mp ((hqs.types type).mp ht)
  refine ⟨q, hqs.there q hq, ?_, hqt⟩
  rw [hqs.requests]
  exact List.mem_map.mpr ⟨q, hq, rfl⟩

theorem Sound.nodup (h : b.Sound t) : b.requests.Nodup := by
  obtain ⟨qs, hqs⟩ := h.backed
  rw [hqs.requests]
  exact hqs.distinct

/-- Two requests of a line in one type are the same. -/
theorem Sound.one (h : b.Sound t) (ht : t.Sound) (hline : b.site.isLine = true) {p q : Request}
    (hp : p ∈ t.requests) (hq : q ∈ t.requests) (hpb : p.id ∈ b.requests) (hqb : q.id ∈ b.requests)
    (htype : p.location.type = q.location.type) : p = q := by
  obtain ⟨qs, hqs⟩ := h.backed
  have hin {p : Request} (hp : p ∈ t.requests) (hpb : p.id ∈ b.requests) : p ∈ qs := by
    rw [hqs.requests] at hpb
    obtain ⟨c, hc, hid⟩ := List.mem_map.mp hpb
    exact ht.request_unique (hqs.there c hc) hp hid ▸ hc
  exact List.inj_on_of_nodup_map (hqs.line hline).2 (hin hp hpb) (hin hq hqb) htype

theorem Sound.attached_eq_nil (h : b.Sound t) : b.attached = [] ↔ b.requests = [] := by
  obtain ⟨qs, hqs⟩ := h.backed
  rw [hqs.requests, List.map_eq_nil_iff, List.eq_nil_iff_forall_not_mem]
  constructor
  · intro hno
    rw [List.eq_nil_iff_forall_not_mem]
    exact fun q hq => hno _ ((hqs.types _).mpr (List.mem_map.mpr ⟨q, hq, rfl⟩))
  · rintro rfl type
    simp [hqs.types]

theorem Sound.attached_length (h : b.Sound t) (hline : b.site.isLine = true) :
    b.attached.length = b.requests.length := by
  obtain ⟨qs, hqs⟩ := h.backed
  rw [(hqs.line hline).1, hqs.requests, List.length_map, List.length_map]

theorem Sound.attached_nodup (h : b.Sound t) (hline : b.site.isLine = true) : b.attached.Nodup := by
  obtain ⟨qs, hqs⟩ := h.backed
  rw [(hqs.line hline).1]
  exact (hqs.line hline).2

/-- The requests of the breakpoint may be switched at the target, and others may come and go. -/
theorem Sound.retarget (h : b.Sound t) (f : Request → Request) (hid : ∀ q, (f q).id = q.id)
    (hloc : ∀ q, (f q).location = q.location)
    (hkeep : ∀ q ∈ t.requests, q.id ∈ b.requests → f q ∈ t'.requests) : b.Sound t' := by
  obtain ⟨qs, hqs⟩ := h.backed
  have hids : (qs.map f).map (·.id) = qs.map (·.id) := by simp [Function.comp_def, hid]
  have hlocs : (qs.map f).map (·.location.type) = qs.map (·.location.type) := by
    simp [Function.comp_def, hloc]
  refine ⟨⟨qs.map f, ?_, ?_, ?_, ?_, ?_⟩, h.pending, h.method⟩
  · intro p hp
    obtain ⟨q, hq, rfl⟩ := List.mem_map.mp hp
    refine hkeep q (hqs.there q hq) ?_
    rw [hqs.requests]
    exact List.mem_map.mpr ⟨q, hq, rfl⟩
  · rw [hids, hqs.requests]
  · rw [hids]
    exact hqs.distinct
  · rw [hlocs]
    exact hqs.types
  · rw [hlocs]
    exact hqs.line

theorem Sound.keep (h : b.Sound t) (hkeep : ∀ q ∈ t.requests, q.id ∈ b.requests → q ∈ t'.requests) :
    b.Sound t' :=
  h.retarget (fun q => q) (fun _ => rfl) (fun _ => rfl) hkeep

/-- Only what a breakpoint asks for, what it has and how far it is attached matter. -/
theorem Sound.of_same (h : b.Sound t) {b' : Breakpoint} (hsite : b'.site = b.site)
    (hreq : b'.requests = b.requests) (hatt : b'.attached = b.attached)
    (hres : b'.resolution = b.resolution) : b'.Sound t := by
  obtain ⟨qs, hqs⟩ := h.backed
  refine ⟨⟨qs, hqs.there, hreq.trans hqs.requests, hqs.distinct, ?_, ?_⟩, ?_, ?_⟩
  · rw [hatt]
    exact hqs.types
  · rw [hsite, hatt]
    exact hqs.line
  · rw [hres, hreq]
    exact h.pending
  · rw [hsite, hres]
    exact h.method

theorem sound_of_empty (hreq : b.requests = []) (hatt : b.attached = [])
    (hres : b.resolution = .pending) : b.Sound t := by
  refine ⟨⟨[], by simp, by simp [hreq], .nil, by simp [hatt], fun _ => ⟨by simp [hatt], .nil⟩⟩,
    by simp [hreq, hres], by simp [hres]⟩

theorem Sound.gain {l l' : Link} {news : List Request} (h : b.Sound l.target)
    (ht : l.target.Sound) (ha : l.Adds l' news) (hsome : news ≠ [])
    (hapart : b.site.isLine = true → (b.attached ++ news.map (·.location.type)).Nodup)
    {resolution : Resolution} (hres : resolution ≠ .pending)
    (hmethod : b.site.isLine = false → resolution ≠ .partly) :
    (b.gain (news.map Request.attachment) resolution).Sound l'.target := by
  obtain ⟨qs, hqs⟩ := h.backed
  refine ⟨⟨qs ++ news, ?_, ?_, ?_, ?_, ?_⟩, ?_, ?_⟩
  · intro q hq
    rw [ha.requests, List.mem_append]
    exact (List.mem_append.mp hq).imp (hqs.there q) fun h => h
  · rw [gain_requests, Request.attachments_requests, hqs.requests, List.map_append]
  · rw [List.map_append]
    refine List.nodup_append.mpr ⟨hqs.distinct, ha.nodup, ?_⟩
    intro n hn m hm he
    obtain ⟨p, hp, rfl⟩ := List.mem_map.mp hn
    obtain ⟨q, hq, rfl⟩ := List.mem_map.mp hm
    have hle := ht.request_le (hqs.there p hp)
    rw [he] at hle
    exact Nat.not_lt_of_le hle (ha.fresh hq).1
  · intro type
    rw [gain_attached, mem_attach_attached, Request.attachments_types, hqs.types, List.map_append,
      List.mem_append]
  · intro hline
    rw [gain_site] at hline
    have hn := hapart hline
    rw [gain_attached, attach_attached_of_nodup b _ (by rwa [Request.attachments_types]),
      Request.attachments_types, List.map_append, (hqs.line hline).1]
    rw [(hqs.line hline).1] at hn
    exact ⟨rfl, hn⟩
  · rw [gain_resolution, gain_requests, Request.attachments_requests]
    simp [hres, hsome]
  · rw [gain_site, gain_resolution]
    exact hmethod

end Breakpoint

end Debugger
