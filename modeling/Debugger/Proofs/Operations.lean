import Debugger.Proofs.EvaluationFrame
import Debugger.Proofs.Loading

/-!
The other operations of a registry: of which steps they consist, and that the right breakpoints
wait afterwards.
-/

namespace Debugger

namespace Registry

variable {r : Registry} {l : Link}

/-! ### Registration -/

theorem insert_eq (r : Registry) (b : Breakpoint) (as : List Attachment) :
    r.insert b as = { r.own b.id as with
      breakpoints := r.breakpoints ++ [b]
      pendingLines := r.pendingLines ++ b.waitingLines
      pendingTypes := r.pendingTypes ++ b.waitingTypes } := by
  simp only [insert, Breakpoint.waitingLines, Breakpoint.waitingTypes]
  cases b.site with
  | line file line =>
    by_cases hres : b.resolution = .resolved <;> simp [hres, own]
  | method type name params =>
    by_cases hres : b.resolution = .resolved <;> simp [hres, own]

theorem enlist_grant {b : Breakpoint} (hnew : ∀ c ∈ r.breakpoints, c.id ≠ b.id)
    (as : List Attachment) (resolution : Resolution) :
    (r.enlist b).grant b.id as resolution =
      { ({ r with nextId := r.nextId + 1 } : Registry).own b.id as with
        breakpoints := r.breakpoints ++ [b.gain as resolution] } := by
  have hold : (r.breakpoints.map fun c => if c.id = b.id then c.gain as resolution else c) =
      r.breakpoints :=
    (List.map_congr_left fun c hc => if_neg (hnew c hc)).trans (List.map_id' _)
  simp only [grant, update, enlist, own, List.map_append, hold, List.map_cons, List.map_nil,
    ↓reduceIte]

/-- A new breakpoint found these requests in these types, which are all that are loaded and that it
asks for. -/
structure Resolves (mode : SourceMatch) (l : Link) (b : Breakpoint) (types : List TypeId)
    (news : List Request) (resolution : Resolution) (l' : Link) : Prop where
  scan : Scan mode b.site types b.enabled l (news.map Request.attachment, l') news
  nodup : types.Nodup
  loaded : ∀ type e, l.target.type? type = some e → e.loaded = true → b.site.Concerns mode e →
    type ∈ types
  pending : resolution = .pending ↔ news = []
  method : b.site.isLine = false → resolution ≠ .partly
  shared : resolution = .partly → b.site.Shared mode l.target

theorem listed_types (hs : l.target.Sound) {name : Option String} {types : List TypeId}
    (h : l.answer .listLoaded (·.listLoaded name) = .ok types) : types.Nodup ∧
      ∀ type, type ∈ types ↔ ∃ e, l.target.type? type = some e ∧ e.loaded = true ∧
        name.all (e.name = ·) = true := by
  rw [Target.listLoaded_ok (Link.answer_ok h)]
  refine ⟨(List.filter_sublist.map _).nodup hs.types_nodup, fun type => List.mem_map.trans ?_⟩
  simp only [List.mem_filter, Bool.and_eq_true, hs.type?_eq_some]
  exact ⟨fun ⟨e, ⟨hm, hl⟩, hid⟩ => ⟨e, ⟨hm, hid⟩, hl⟩, fun ⟨e, ⟨hm, hid⟩, hl⟩ => ⟨e, ⟨hm, hl⟩, hid⟩⟩

theorem not_reliable_of_listLoaded {name : Option String} {fault : Fault}
    (h : l.answer .listLoaded (·.listLoaded name) = .error fault) : ¬ l.Reliable := by
  intro hl
  rw [hl.answer, Target.listLoaded_of_connected hl.connected] at h
  contradiction

theorem lineResolution_eq_pending {attached matching : Nat} :
    lineResolution attached matching = .pending ↔ attached = 0 := by
  unfold lineResolution
  split
  · simp_all
  · split <;> simp_all

/-- A line is attached to a part of its types only if there is more than one. -/
theorem lineResolution_partly {attached : Nat} {found : List TypeId} (hnodup : found.Nodup)
    (h : lineResolution attached found.length = .partly) :
    ∃ type type', type ≠ type' ∧ type ∈ found ∧ type' ∈ found := by
  unfold lineResolution at h
  split at h
  · contradiction
  · split at h
    · match found, hnodup with
      | [], _ => contradiction
      | [_], _ => simp_all
      | type :: type' :: _, hnodup =>
        refine ⟨type, type', ?_, by simp, by simp⟩
        rintro rfl
        simp at hnodup
    · contradiction

theorem resolveNew_line (hs : l.target.Sound) {b : Breakpoint} (hatt : b.attached = [])
    {file : String} {line : Nat} (hsite : b.site = .line file line) :
    (∃ fault, r.resolveNew b l = (.error fault, l.counted) ∧ ¬ l.Reliable) ∨
      ∃ types news resolution l', r.resolveNew b l =
          (.ok (b.gain (news.map Request.attachment) resolution, news.map Request.attachment), l') ∧
        Resolves r.settings.sourceMatch l b types news resolution l' := by
  simp only [resolveNew, hsite, OverLink.bind_run, Remote.listLoaded, Link.ask_outcome]
  cases hok : l.answer .listLoaded (·.listLoaded none) with
  | error fault => exact .inl ⟨fault, rfl, not_reliable_of_listLoaded hok⟩
  | ok types =>
    obtain ⟨hnodup, hmem⟩ := listed_types hs hok
    obtain ⟨news, hscan, found, hsub, hlen, hfound⟩ :=
      scanLines_scan (l := l.counted) hs r.settings.sourceMatch b.enabled file line types
    generalize hout : scanLines r.settings.sourceMatch b.enabled file line types l.counted = out
      at hscan hlen
    obtain ⟨⟨matching, as⟩, l'⟩ := out
    obtain rfl : matching = found.length := hlen
    obtain rfl : as = news.map Request.attachment := hscan.result
    have hatt' : (b.attach (news.map Request.attachment)).attached =
        news.map (·.location.type) := by
      rw [Breakpoint.attach_attached_of_nodup, Request.attachments_types, hatt, List.nil_append]
      rw [Request.attachments_types, hatt, List.nil_append]
      exact (hscan.apart rfl).nodup hnodup
    refine .inr ⟨types, news,
      lineResolution (b.attach (news.map Request.attachment)).attached.length found.length, l', ?_,
      hsite ▸ hscan.counted, hnodup, ?_, ?_, by simp [hsite, Site.isLine], fun hpartly => ?_⟩
    · simp only [OverLink.bind_run, hout]
      rfl
    · exact fun type e he hl _ => (hmem type).mpr ⟨e, he, hl, rfl⟩
    · rw [hatt', List.length_map, lineResolution_eq_pending, List.length_eq_zero_iff]
    · obtain ⟨type, type', hne, ht, ht'⟩ := lineResolution_partly (hsub.nodup hnodup) hpartly
      obtain ⟨e, he, hconcerns⟩ := hfound type ht
      obtain ⟨e', he', hconcerns'⟩ := hfound type' ht'
      rw [hsite]
      exact ⟨type, type', e, e', hne, he, he', hconcerns, hconcerns'⟩

theorem resolveNew_method (hs : l.target.Sound) {b : Breakpoint} {owner name : String}
    {params : Option (List String)} (hatt : b.attached = [])
    (hsite : b.site = .method owner name params) :
    (∃ fault, r.resolveNew b l = (.error fault, l.counted) ∧ ¬ l.Reliable) ∨
      ∃ types news resolution l', r.resolveNew b l =
          (.ok (b.gain (news.map Request.attachment) resolution, news.map Request.attachment), l') ∧
        Resolves r.settings.sourceMatch l b types news resolution l' := by
  simp only [resolveNew, hsite, OverLink.bind_run, Remote.listLoaded, Link.ask_outcome]
  cases hok : l.answer .listLoaded (·.listLoaded (some owner)) with
  | error fault => exact .inl ⟨fault, rfl, not_reliable_of_listLoaded hok⟩
  | ok types =>
    obtain ⟨hnodup, hmem⟩ := listed_types hs hok
    have hnames : ∀ type ∈ types, ∀ e, l.target.type? type = some e → e.name = owner := by
      intro type ht e he
      obtain ⟨e', he', -, hn⟩ := (hmem type).mp ht
      obtain rfl : e = e' := Option.some.inj (he.symm.trans he')
      simpa using hn
    obtain ⟨news, hscan⟩ := scanMethods_scan (l := l.counted) hs r.settings.sourceMatch b.enabled
      owner name params types hnames
    generalize hout : scanMethods b.enabled name params types l.counted = out at hscan
    obtain ⟨as, l'⟩ := out
    obtain rfl : as = news.map Request.attachment := hscan.result
    have hempty : (b.attach (news.map Request.attachment)).attached = [] ↔ news = [] := by
      rw [List.eq_nil_iff_forall_not_mem]
      simp only [Breakpoint.mem_attach_attached, hatt, List.not_mem_nil, false_or]
      rw [← List.eq_nil_iff_forall_not_mem, List.map_eq_nil_iff, List.map_eq_nil_iff]
    refine .inr ⟨types, news, if (b.attach (news.map Request.attachment)).attached.isEmpty
      then .pending else .resolved, l', ?_, hsite ▸ hscan.counted, hnodup, ?_, ?_, ?_, ?_⟩
    · simp only [OverLink.bind_run, hout]
      rfl
    · intro type e he hl hc
      rw [hsite] at hc
      have hn : e.name = owner := hc
      exact (hmem type).mpr ⟨e, he, hl, by simpa using hn⟩
    · rw [← hempty, ← List.isEmpty_iff]
      split <;> simp_all
    · intro _
      split <;> simp
    · split <;> simp

theorem resolveNew_run (hs : l.target.Sound) {b : Breakpoint} (hatt : b.attached = []) :
    (∃ fault, r.resolveNew b l = (.error fault, l.counted) ∧ ¬ l.Reliable) ∨
      ∃ types news resolution l', r.resolveNew b l =
          (.ok (b.gain (news.map Request.attachment) resolution, news.map Request.attachment), l') ∧
        Resolves r.settings.sourceMatch l b types news resolution l' := by
  cases hsite : b.site with
  | line file line => exact resolveNew_line hs hatt hsite
  | method owner name params => exact resolveNew_method hs hatt hsite

/-- A registration. A breakpoint that is taken up gets the next id, and nothing that is loaded is
missed by it. -/
structure Registers (s : Registry × Link) (result : Except SessionError Breakpoint)
    (s' : Registry × Link) : Prop extends Moves s s' where
  reliable : s.2.Reliable → s'.2.Reliable
  known : ∀ b, result = .ok b → b ∈ s'.1.breakpoints ∧ b.id = s.1.nextId
  covered : s.2.Reliable → ∀ type e, s.2.target.type? type = some e → e.loaded = true →
    Covered s' s.1.nextId type

theorem accept_ok {spec : BreakpointSpec} {b : Breakpoint} (h : r.accept spec = .ok b) :
    b.id = r.nextId ∧ b.requests = [] ∧ b.attached = [] ∧ b.resolution = .pending := by
  simp only [accept, bind, Except.bind] at h
  split at h
  · contradiction
  · split at h
    · contradiction
    · cases h
      exact ⟨rfl, rfl, rfl, rfl⟩

/-- Steps to a new breakpoint with its first requests. Which breakpoints wait is told separately. -/
theorem insert_steps {b : Breakpoint} (hid : b.id = r.nextId) (hreq : b.requests = [])
    (hatt : b.attached = []) (hpending : b.resolution = .pending)
    (hfresh : ∀ c ∈ r.breakpoints, c.id ≠ b.id) {types : List TypeId} {news : List Request}
    {resolution : Resolution} {l' : Link}
    (hres : Resolves r.settings.sourceMatch l b types news resolution l') :
    Steps (r, l) (({ r with nextId := r.nextId + 1 } : Registry).insert
      (b.gain (news.map Request.attachment) resolution) (news.map Request.attachment), l') := by
  have hlist : Steps (r, l) (r.enlist b, l) := .single (.enlist hid hreq hatt hpending)
  rw [insert_eq, Breakpoint.gain_id]
  by_cases hnews : news = []
  · subst hnews
    obtain rfl : resolution = .pending := hres.pending.mpr rfl
    have hgain : b.gain ([] : List Attachment) .pending = b := by
      rw [Breakpoint.gain, ← hpending]
      rfl
    have helapse : Steps (r.enlist b, l) (r.enlist b, l') :=
      .single (.elapse (hres.scan.adds.target_eq ▸ .refl _) hres.scan.adds.refuses)
    rw [List.map_nil, hgain]
    exact (hlist.trans helapse).tail (.relist _ _)
  · have hg : (r.enlist b).Grants l b news resolution l' := by
      refine ⟨List.mem_append_right _ (by simp), hres.scan.adds, hnews, hres.scan.switched,
        fun q hq => (hres.scan.placed q hq).2, ?_, ?_, fun hp => .inr (hres.shared hp),
        fun hp => hnews (hres.pending.mp hp), hres.method, fun hr => by simp [hpending] at hr⟩
      · intro hline
        rw [hatt, List.nil_append]
        exact (hres.scan.apart hline).nodup hres.nodup
      · intro hl q hq
        obtain ⟨hm, e, he, hconcerns, -⟩ := hres.scan.placed q hq
        refine ⟨by rw [hatt]; exact List.not_mem_nil, fun e' he' => ?_⟩
        obtain rfl : e = e' := Option.some.inj (he.symm.trans he')
        exact hres.scan.exact hl hres.nodup _ hm e he hconcerns
    have hgrant := hlist.tail (.grant hg)
    rw [enlist_grant hfresh] at hgrant
    exact hgrant.tail (.relist _ _)

/-- A new breakpoint misses nothing that is loaded. -/
theorem insert_covered {b : Breakpoint} (hfresh : ∀ c ∈ r.breakpoints, c.id ≠ b.id)
    {types : List TypeId} {news : List Request} {resolution : Resolution} {l' : Link}
    (hres : Resolves r.settings.sourceMatch l b types news resolution l') (hl : l.Reliable)
    {type : TypeId} {e : TypeEntry} (he : l.target.type? type = some e)
    (hloaded : e.loaded = true) :
    Covered (({ r with nextId := r.nextId + 1 } : Registry).insert
      (b.gain (news.map Request.attachment) resolution) (news.map Request.attachment), l')
      b.id type := by
  intro c hc hci e' he' hconcerns hoffers
  rw [insert_eq] at hc hconcerns
  rcases List.mem_append.mp hc with hc | hc
  · exact absurd hci (hfresh c hc)
  · obtain rfl : e = e' := Option.some.inj
      (he.symm.trans ((hres.scan.adds.type? type).symm.trans he'))
    rw [List.mem_singleton.mp hc, Breakpoint.gain_site] at hconcerns hoffers
    rw [List.mem_singleton.mp hc]
    have hin := hres.scan.complete hl hres.nodup (hres.loaded type e he hloaded hconcerns) he
      hconcerns hoffers
    refine .inr ((Breakpoint.mem_attach_attached ..).mpr (.inr ?_))
    rwa [Request.attachments_types]

theorem register_run (h : r.Sound l.target) (spec : BreakpointSpec) :
    ∃ result r' l', r.register spec l = ((result, r'), l') ∧ Registers (r, l) result (r', l') := by
  have ha := h.toAccounted
  have hfresh : ∀ c ∈ r.breakpoints, c.id ≠ r.nextId := fun c hc he =>
    Nat.lt_irrefl _ (he ▸ ha.issued c hc)
  have hvacuous {s : Registry × Link} (hs : s.1.breakpoints = r.breakpoints) (type : TypeId) :
      Covered s r.nextId type := fun c hc hid => absurd hid (hfresh c (hs ▸ hc))
  cases hacc : r.accept spec with
  | error e =>
    refine ⟨.error e, r, l, by simp only [register, hacc]; rfl, ⟨.refl, h.toListed⟩,
      fun hl => hl, by simp, fun _ type _ _ _ => hvacuous rfl type⟩
  | ok b =>
    obtain ⟨hid, hreq, hatt, hpending⟩ := accept_ok hacc
    have hresolve := resolveNew_run (r := { r with nextId := r.nextId + 1 }) ha.target hatt
    change _ ∨ ∃ types news resolution l', _ ∧
      Resolves r.settings.sourceMatch l b types news resolution l' at hresolve
    rcases hresolve with ⟨fault, hrun, hl⟩ | ⟨types, news, resolution, l', hrun, hres⟩
    · refine ⟨.error (.remote fault), { r with nextId := r.nextId + 1 }, l.counted, ?_,
        ⟨?_, h.lines, h.types⟩, fun hl' => absurd hl' hl, by simp, fun hl' => absurd hl' hl⟩
      · simp only [register, hacc, OverLink.bind_run, hrun]
        rfl
      · exact .tail (.single .skip) (.elapse (.refl _) rfl)
    · have hgain : (b.gain (news.map Request.attachment) resolution).id = r.nextId := by
        rw [Breakpoint.gain_id, hid]
      refine ⟨.ok (b.gain (news.map Request.attachment) resolution), _, l', ?_,
        ⟨insert_steps hid hreq hatt hpending (hid ▸ hfresh) hres, ?_, ?_⟩,
        hres.scan.adds.reliable, ?_, ?_⟩
      · simp only [register, hacc, OverLink.bind_run, hrun]
        rfl
      · rw [insert_eq]
        simp [waitingLines, h.lines]
      · rw [insert_eq]
        simp [waitingTypes, h.types]
      · intro b' hb'
        rw [insert_eq, ← Except.ok.inj hb']
        exact ⟨List.mem_append_right _ (by simp), hgain⟩
      · exact fun hl type e he hloaded =>
          hid ▸ insert_covered (hid ▸ hfresh) hres hl he hloaded

/-- Where no call fails, a breakpoint that can be accepted is taken up. -/
theorem register_taken (h : r.Sound l.target) (hl : l.Reliable) {spec : BreakpointSpec}
    {b : Breakpoint} (hacc : r.accept spec = .ok b) : ∃ b', (r.register spec l).1.1 = .ok b' := by
  obtain ⟨-, -, hatt, -⟩ := accept_ok hacc
  rcases resolveNew_run (r := { r with nextId := r.nextId + 1 }) h.target hatt with
    ⟨fault, -, hno⟩ | ⟨types, news, resolution, l', hrun, -⟩
  · exact absurd hl hno
  · simp only [register, hacc, OverLink.bind_run, hrun]
    exact ⟨_, rfl⟩

/-! ### Removal -/

theorem flatMap_filter_id {α : Type} (w : Breakpoint → List α) (key : α → BreakpointId)
    (hkey : ∀ b, ∀ a ∈ w b, key a = b.id) (bs : List Breakpoint) (id : BreakpointId) :
    (bs.filter (·.id ≠ id)).flatMap w = (bs.flatMap w).filter (key · ≠ id) := by
  induction bs with
  | nil => rfl
  | cons b bs ih =>
    rw [List.flatMap_cons, List.filter_append, ← ih]
    by_cases hid : b.id = id
    · have hnone : (w b).filter (key · ≠ id) = [] :=
        List.filter_eq_nil_iff.mpr fun a ha => by simpa [hkey b a ha] using hid
      rw [hnone, List.nil_append, List.filter_cons_of_neg (by simpa using hid)]
    · have hall : (w b).filter (key · ≠ id) = w b :=
        List.filter_eq_self.mpr fun a ha => by simpa [hkey b a ha] using hid
      rw [hall, List.filter_cons_of_pos (by simpa using hid), List.flatMap_cons]

/-- Without a breakpoint nothing waits for it. -/
theorem Listed.without (h : r.Listed) (id : BreakpointId) {r' : Registry}
    (hbs : r'.breakpoints = r.breakpoints.filter (·.id ≠ id))
    (hlines : r'.pendingLines = r.pendingLines.filter (·.id ≠ id))
    (htypes : r'.pendingTypes = r.pendingTypes.filter (·.2 ≠ id)) : r'.Listed := by
  constructor
  · rw [hlines, h.lines, waitingLines, waitingLines, hbs]
    exact (flatMap_filter_id _ (fun p : PendingLine => p.id)
      (fun b p hp => (Breakpoint.mem_waitingLines.mp hp).1.symm) _ _).symm
  · rw [htypes, h.types, waitingTypes, waitingTypes, hbs]
    exact (flatMap_filter_id _ (fun p : String × BreakpointId => p.2)
      (fun b p hp => (Breakpoint.mem_waitingTypes.mp hp).1.symm) _ _).symm

theorem remove_run (h : r.Sound l.target) (id : BreakpointId) :
    ∃ existed r' l', r.remove id l = ((existed, r'), l') ∧ Moves (r, l) (r', l') ∧
      ∀ b ∈ r'.breakpoints, b.id ≠ id := by
  cases hf : r.find? id with
  | none =>
    have hno := Accounted.find?_eq_none.mp hf
    have hall : r.breakpoints.filter (·.id ≠ id) = r.breakpoints :=
      List.filter_eq_self.mpr fun b hb => by simpa using hno b hb
    refine ⟨false, { r with
      pendingLines := r.pendingLines.filter (·.id ≠ id)
      pendingTypes := r.pendingTypes.filter (·.2 ≠ id) }, l, by simp only [remove, hf]; rfl,
      ⟨.single (.relist _ _), ?_⟩, hno⟩
    exact h.toListed.without id hall.symm rfl rfl
  | some b =>
    obtain ⟨hb, rfl⟩ := h.find?_eq_some.mp hf
    obtain ⟨gone, hsub, ht, hr, hall⟩ := deleteRequests_run h.target b.requests
    refine ⟨true, _, (deleteRequests b.requests l).2, by simp only [remove, hf]; rfl,
      ⟨?_, h.toListed.without b.id rfl rfl rfl⟩, ?_⟩
    · exact .tail (.single (.forget hb hsub ht hr hall)) (.relist _ _)
    · exact fun c hc => by simpa using (List.mem_filter.mp hc).2

theorem clear_run (h : r.Sound l.target) :
    ∃ l', r.clear l = ({ settings := r.settings, nextId := r.nextId }, l') ∧
      Moves (r, l) ({ settings := r.settings, nextId := r.nextId }, l') := by
  obtain ⟨gone, hsub, ht, hr, hall⟩ := deleteRequests_run h.target (r.owners.map (·.1))
  exact ⟨(deleteRequests (r.owners.map (·.1)) l).2, rfl, .single (.clear hsub ht hr hall), rfl, rfl⟩

/-! ### Switching and hits -/

/-- How often a breakpoint was hit and whether it is enabled does not make it wait. -/
theorem Sound.listed_update (h : r.Sound l.target) {b : Breakpoint} (hb : b ∈ r.breakpoints)
    {f : Breakpoint → Breakpoint}
    (hf : f b = { b with enabled := (f b).enabled, hits := (f b).hits }) :
    (r.update b.id f).Listed := by
  have hlines : (f b).waitingLines = b.waitingLines := by rw [hf]; rfl
  have htypes : (f b).waitingTypes = b.waitingTypes := by rw [hf]; rfl
  exact ⟨h.lines.trans (h.flatMap_update hb _ hlines).symm,
    h.types.trans (h.flatMap_update hb _ htypes).symm⟩

theorem setEnabled_run (h : r.Sound l.target) (id : BreakpointId) (enabled : Bool) :
    ∃ result r' l', r.setEnabled id enabled l = ((result, r'), l') ∧ Moves (r, l) (r', l') := by
  cases hf : r.find? id with
  | none =>
    exact ⟨_, r, l, by simp only [setEnabled, hf]; rfl, .refl, h.toListed⟩
  | some b =>
    obtain ⟨hb, rfl⟩ := h.find?_eq_some.mp hf
    obtain ⟨done, hsub, ht, hr, hall⟩ := switchRequests_run enabled b.requests l
    simp only [setEnabled, hf, OverLink.bind_run]
    cases hout : (switchRequests enabled b.requests l).1 with
    | error fault =>
      refine ⟨_, r, (switchRequests enabled b.requests l).2, rfl, .single ?_, h.toListed⟩
      refine .falter hb hsub ht hr fun hl => ?_
      rw [(hall hl).1] at hout
      contradiction
    | ok u =>
      exact ⟨_, r.update b.id ({ · with enabled }), (switchRequests enabled b.requests l).2, rfl,
        .single (.toggle hb hsub ht hr fun hl => (hall hl).2), h.listed_update hb rfl⟩

theorem recordHit_run (h : r.Sound l.target) (request : RequestId) :
    Moves (r, l) ((r.recordHit request).2, l) := by
  unfold recordHit
  split
  · exact ⟨.refl, h.toListed⟩
  · rename_i b hb
    obtain ⟨id, -, hfind⟩ := Option.bind_eq_some_iff.mp hb
    have hm := (h.find?_eq_some.mp hfind).1
    have hcount (hits : Nat) : Moves (r, l) (r.update b.id fun _ => { b with hits }, l) :=
      ⟨.single (.count hits hm), h.listed_update hm rfl⟩
    dsimp only
    split
    · exact hcount (b.hits + 1)
    · exact hcount b.hits

end Registry

end Debugger
