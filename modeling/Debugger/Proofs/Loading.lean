import Debugger.Proofs.SourcePaths
import Debugger.Proofs.Waiting

/-!
Loads: what trying the waiting breakpoints against a type makes of the registry, and that it misses
nothing where no call fails.
-/

namespace Debugger

namespace Registry

/-- No code in the type that a breakpoint asks for is missed. -/
def Covered (s : Registry × Link) (id : BreakpointId) (type : TypeId) : Prop :=
  ∀ b ∈ s.1.breakpoints, b.id = id → ∀ e, s.2.target.type? type = some e →
    b.site.Concerns s.1.settings.sourceMatch e → b.site.Offers e →
      b.resolution = .resolved ∨ type ∈ b.attached

theorem Covered.follows {s s' : Registry × Link} {id : BreakpointId} {type : TypeId}
    {e : TypeEntry} (hc : Covered s id type) (h : Follows s s') (hid : id < s.1.nextId)
    (he : s.2.target.type? type = some e) : Covered s' id type := by
  rintro b' hb' rfl e' he' hconcerns hoffers
  obtain ⟨b, hb, hages⟩ := h.breakpoints b' hb' hid
  obtain ⟨d, hd, hbecomes⟩ := h.types he
  obtain rfl : d = e' := Option.some.inj (hd.symm.trans he')
  rw [hages.site, h.settings, Site.concerns_becomes hbecomes] at hconcerns
  rw [hages.site, Site.offers_becomes hbecomes] at hoffers
  exact (hc b hb hages.id.symm e he hconcerns hoffers).imp (fun hr => hages.resolved hr)
    fun ha => hages.attached ha

variable {r : Registry} {l l' : Link} {type : TypeId} {e : TypeEntry}

theorem Accounted.covered (ha : r.Accounted l.target) {b : Breakpoint} (hb : b ∈ r.breakpoints)
    (he : l.target.type? type = some e)
    (h : b.site.Concerns r.settings.sourceMatch e → b.site.Offers e →
      b.resolution = .resolved ∨ type ∈ b.attached) : Covered (r, l) b.id type := by
  intro c hc hid e' he' hconcerns hoffers
  obtain rfl := ha.unique hc hb hid
  obtain rfl : e = e' := Option.some.inj (he.symm.trans he')
  exact h hconcerns hoffers

/-- A breakpoint just attached in the type, or fully attached, misses nothing there. -/
theorem Grants.covered {b : Breakpoint} {news : List Request} {resolution : Resolution}
    (g : r.Grants l b news resolution l') (ha : r.Accounted l.target)
    (h : resolution = .resolved ∨ type ∈ news.map (·.location.type)) :
    Covered (r.grant b.id (news.map Request.attachment) resolution, l') b.id type := by
  intro c hc hid _ _ _ _
  rcases (ha.mem_update g.listed _).mp hc with rfl | ⟨-, hne⟩
  · refine h.imp (fun hres => hres) fun hnew => ?_
    refine (Breakpoint.mem_attach_attached ..).mpr (.inr ?_)
    rwa [Request.attachments_types]
  · exact absurd hid hne

/-- What an attempt found in a type, the breakpoint may take over. -/
theorem Accounted.grants (ha : r.Accounted l.target) {b : Breakpoint} (hb : b ∈ r.breakpoints)
    (he : l.target.type? type = some e) {out : List Attachment × Link} {news : List Request}
    (hat : Attaches b.site type b.enabled l out news) (hnews : news ≠ [])
    (hconcerns : b.site.Concerns r.settings.sourceMatch e)
    (hnew : type ∉ b.attached) {resolution : Resolution}
    (hres : resolution ≠ .pending) (hmethod : b.site.isLine = false → resolution ≠ .partly)
    (hpartly : resolution = .partly → b.resolution = .partly)
    (hkeep : b.resolution = .resolved → resolution = .resolved) :
    r.Grants l b news resolution out.2 := by
  refine ⟨hb, hat.adds, hnews, hat.switched, ?_, ?_, ?_, fun h => .inl (hpartly h), hres, hmethod,
    hkeep⟩
  · intro q hq
    obtain ⟨rfl, e', he', hholds⟩ := hat.placed q hq
    obtain rfl : e = e' := Option.some.inj (he.symm.trans he')
    exact ⟨e, he, hconcerns, hholds⟩
  · intro hline
    obtain ⟨q, rest, rfl⟩ := List.exists_cons_of_ne_nil hnews
    obtain rfl : rest = [] := List.eq_nil_of_length_eq_zero
      (Nat.le_zero.mp (Nat.le_of_succ_le_succ (hat.single hline)))
    refine List.nodup_append.mpr ⟨(ha.each b hb).attached_nodup hline, by simp, ?_⟩
    rintro n hn m hm rfl
    rw [List.map_singleton, List.mem_singleton, (hat.placed q (by simp)).1] at hm
    exact hnew (hm ▸ hn)
  · intro hl q hq
    rw [(hat.placed q hq).1]
    refine ⟨hnew, fun e' he' => ?_⟩
    rw [← hat.exact hl e' he']
    refine List.filter_eq_self.mpr fun location hm => ?_
    obtain ⟨p, hp, rfl⟩ := List.mem_map.mp hm
    simpa using (hat.placed p hp).1

/-! ### Methods -/

section Methods

variable {id : BreakpointId} {b : Breakpoint} {owner name : String} {params : Option (List String)}

theorem loadMethods_cons_nil (ids : List BreakpointId) (hf : r.find? id = some b)
    (hs : b.site = .method owner name params)
    (hrun : Attachment.toMethod b.enabled type name params l = ([], l')) :
    loadMethods type (id :: ids) r l =
      (((loadMethods type ids r l').1.1, id :: (loadMethods type ids r l').1.2.1,
        (loadMethods type ids r l').1.2.2), (loadMethods type ids r l').2) := by
  obtain ⟨_, site, _, _, _, _, _, _, _, _⟩ := b
  obtain rfl : site = .method owner name params := hs
  simp only [loadMethods, hf, OverLink.bind_run, hrun]
  rfl

theorem loadMethods_cons_some (ids : List BreakpointId) (hf : r.find? id = some b)
    (hs : b.site = .method owner name params) {as : List Attachment} (has : as ≠ [])
    (hrun : Attachment.toMethod b.enabled type name params l = (as, l')) :
    loadMethods type (id :: ids) r l =
      ((id :: (loadMethods type ids (r.grant id as .resolved) l').1.1,
        (loadMethods type ids (r.grant id as .resolved) l').1.2.1,
        (loadMethods type ids (r.grant id as .resolved) l').1.2.2),
        (loadMethods type ids (r.grant id as .resolved) l').2) := by
  obtain ⟨_, site, _, _, _, _, _, _, _, _⟩ := b
  obtain rfl : site = .method owner name params := hs
  obtain ⟨a, as, rfl⟩ := List.exists_cons_of_ne_nil has
  simp only [loadMethods, hf, OverLink.bind_run, hrun, update_attach_eq_grant]
  rfl

/-- A method that waits has nothing yet. -/
theorem Accounted.method_unattached (ha : r.Accounted l.target) (hb : b ∈ r.breakpoints)
    (hs : b.site = .method owner name params) (hres : b.resolution ≠ .resolved) :
    b.attached = [] := by
  have hsound := ha.each b hb
  refine hsound.attached_eq_nil.mpr (hsound.pending.mp ?_)
  have hmethod := hsound.method (by rw [hs]; rfl)
  cases hb : b.resolution with
  | pending => rfl
  | partly => exact absurd hb hmethod
  | resolved => exact absurd hb hres

/-- Of the ids that are tried, those that are attached are done, and the others go on waiting. -/
theorem loadMethods_run (ha : r.Accounted l.target) (he : l.target.type? type = some e)
    (ids : List BreakpointId) (hids : ∀ id ∈ ids, (e.name, id) ∈ r.waitingTypes)
    (hnodup : ids.Nodup) :
    ∃ done waiting r' l', loadMethods type ids r l = ((done, waiting, r'), l') ∧
      Tried r l done r' l' ∧ (done ++ waiting).Perm ids ∧
      (l.Reliable → ∀ id ∈ ids, Covered (r', l') id type) := by
  induction ids generalizing r l with
  | nil => exact ⟨[], [], r, l, rfl, .idle r rfl rfl, .nil, by simp⟩
  | cons id ids ih =>
    obtain ⟨b, hb, rfl, ⟨name, params, hbs⟩, hwaits⟩ := mem_waitingTypes.mp (hids id (by simp))
    obtain ⟨hnew, hnodup⟩ := List.nodup_cons.mp hnodup
    have hf := ha.find?_eq_some.mpr ⟨hb, rfl⟩
    obtain ⟨news, hat⟩ :=
      Attachment.toMethod_attaches ha.target b.enabled type e.name name params
    generalize hout : Attachment.toMethod b.enabled type name params l = out at hat
    obtain ⟨as, l₁⟩ := out
    obtain rfl : as = news.map Request.attachment := hat.result
    by_cases hnews : news = []
    · subst hnews
      have ht : l₁.target = l.target := hat.adds.target_eq
      have hidle : Tried r l [] r l₁ := .idle r ht hat.adds.refuses
      obtain ⟨done, waiting, r', l', hrun, htried, hperm, hcov⟩ :=
        ih (l := l₁) (ht ▸ ha) (ht ▸ he) (fun id hid => hids id (List.mem_cons_of_mem _ hid)) hnodup
      refine ⟨done, b.id :: waiting, r', l', ?_, ?_, ?_, ?_⟩
      · rw [loadMethods_cons_nil ids hf hbs hout, hrun]
      · exact hidle.trans htried
      · exact List.perm_middle.trans (hperm.cons b.id)
      · intro hl i hi
        rcases List.mem_cons.mp hi with rfl | hi
        · have hnow : Covered (r, l₁) b.id type := by
            refine Accounted.covered (ht ▸ ha) hb (ht ▸ he) fun _ hoffers => ?_
            rw [hbs] at hoffers
            exact absurd rfl (hat.complete hl e he hoffers)
          exact hnow.follows (htried.follows (ht ▸ ha)) (ha.issued b hb) (ht ▸ he)
        · exact hcov (hat.adds.reliable hl) i hi
    · have hg : r.Grants l b news .resolved l₁ := by
        refine ha.grants hb he (hbs ▸ hat) hnews ?_ ?_ (by simp) (by simp) (by simp) fun _ => rfl
        · rw [hbs]
          rfl
        · rw [ha.method_unattached hb hbs hwaits]
          exact List.not_mem_nil
      have htried := hg.tried_resolved ha rfl
      have he₁ : l₁.target.type? type = some e := by rw [hat.adds.type?, he]
      obtain ⟨done, waiting, r', l', hrun, htried', hperm, hcov⟩ :=
        ih (ha.grant hg) he₁ (fun id hid => by
          rw [htried.waitingTypes, List.mem_filter]
          refine ⟨hids id (List.mem_cons_of_mem _ hid), ?_⟩
          simpa using fun he : id = b.id => hnew (he ▸ hid)) hnodup
      refine ⟨b.id :: done, waiting, r', l', ?_, ?_, ?_, ?_⟩
      · rw [loadMethods_cons_some ids hf hbs (by simpa using hnews) hout, hrun]
      · exact htried.trans htried'
      · exact hperm.cons b.id
      · intro hl i hi
        rcases List.mem_cons.mp hi with rfl | hi
        · exact (hg.covered ha (.inl rfl)).follows (htried'.follows (ha.grant hg)) (ha.issued b hb)
            he₁
        · exact hcov (hat.adds.reliable hl) i hi

end Methods

/-! ### Lines -/

section Lines

variable {source : String} {p : PendingLine} {b : Breakpoint}

/-- A line that waits for the file of the type gets its first request there, unless it has one or
the type has no code on it. -/
theorem loadLine_run (ha : r.Accounted l.target) (he : l.target.type? type = some e)
    (hsource : e.sourceFile = some source) (hb : b ∈ r.breakpoints) (hid : b.id = p.id)
    (hsite : b.site = .line p.file p.line) :
    (∃ l', loadLine type source p r l = ((false, r), l') ∧ l'.target = l.target ∧
        l'.refuses = l.refuses ∧ (l.Reliable → Covered (r, l') p.id type)) ∨
      ∃ news l', loadLine type source p r l =
          ((true, r.attach p.id (news.map Request.attachment)), l') ∧
        type ∈ news.map (·.location.type) ∧ ∀ resolution, resolution ≠ .pending →
          (resolution = .partly → b.resolution = .partly) →
          (b.resolution = .resolved → resolution = .resolved) →
            r.Grants l b news resolution l' := by
  have hf := ha.find?_eq_some.mpr ⟨hb, hid⟩
  have hcovered {l' : Link} (ht : l'.target = l.target)
      (hno : (Site.line p.file p.line).Concerns r.settings.sourceMatch e →
        (Site.line p.file p.line).Offers e → type ∈ b.attached) :
      Covered (r, l') p.id type := by
    rw [← hsite] at hno
    exact hid ▸ Accounted.covered (ht ▸ ha) hb (ht ▸ he) fun hc ho => .inr (hno hc ho)
  by_cases hm : SourcePath.sourceMatches r.settings.sourceMatch p.file source = true
  · by_cases hin : type ∈ b.attached
    · refine .inl ⟨l, ?_, rfl, rfl, fun _ => hcovered rfl fun _ _ => hin⟩
      simp only [loadLine, hm, hf, hin, Bool.not_true, Bool.false_eq_true, ↓reduceIte]
      rfl
    · obtain ⟨news, hat⟩ :=
        Attachment.toLine_attaches ha.target b.enabled type p.file p.line
      generalize hout : Attachment.toLine b.enabled type p.line l = out at hat
      obtain ⟨as, l₁⟩ := out
      obtain rfl : as = news.map Request.attachment := hat.result
      by_cases hnews : news = []
      · subst hnews
        refine .inl ⟨l₁, ?_, hat.adds.target_eq, hat.adds.refuses, fun hl =>
          hcovered hat.adds.target_eq fun _ ho => absurd rfl (hat.complete hl e he ho)⟩
        simp only [loadLine, hm, hf, hin, Bool.not_true, Bool.false_eq_true, ↓reduceIte,
          OverLink.bind_run, hout]
        rfl
      · obtain ⟨q, rest, rfl⟩ := List.exists_cons_of_ne_nil hnews
        have htype := (hat.placed q (by simp)).1
        refine .inr ⟨q :: rest, l₁, ?_, by simp [htype], fun resolution hres hpartly hkeep => ?_⟩
        · simp only [loadLine, hm, hf, hin, Bool.not_true, Bool.false_eq_true, ↓reduceIte,
            OverLink.bind_run, hout]
          rfl
        · refine ha.grants hb he (hsite ▸ hat) hnews ?_ hin hres ?_ hpartly hkeep
          · rw [hsite]
            exact ⟨source, hsource, hm⟩
          · simp [hsite, Site.isLine]
  · refine .inl ⟨l, ?_, rfl, rfl, fun _ => hcovered rfl ?_⟩
    · simp only [loadLine, hm, Bool.not_false, ↓reduceIte]
      rfl
    · rintro ⟨s, hs, hmatch⟩
      obtain rfl : source = s := Option.some.inj (hsource.symm.trans hs)
      exact absurd hmatch hm

theorem loadLines_cons_false (ps : List PendingLine)
    (hrun : loadLine type source p r l = ((false, r), l')) :
    loadLines type source (p :: ps) r l = loadLines type source ps r l' := by
  simp only [loadLines, OverLink.bind_run, hrun]

/-- How far a waiting line is attached after its next request. -/
def advanced : Resolution → Resolution
  | .pending => .resolved
  | resolution => resolution

theorem loadLines_cons_true (ha : r.Accounted l.target) (ps : List PendingLine)
    (hb : b ∈ r.breakpoints) (hid : b.id = p.id) {as : List Attachment}
    (hrun : loadLine type source p r l = ((true, r.attach p.id as), l')) :
    loadLines type source (p :: ps) r l =
      let out := loadLines type source ps (r.grant p.id as (advanced b.resolution)) l'
      ((p.id :: out.1.1,
        if b.resolution = .pending then p.id :: out.1.2.1 else out.1.2.1, out.1.2.2), out.2) := by
  have hf := ha.find?_eq_some.mpr ⟨hb, hid⟩
  have hgrant := ha.attach_eq_grant hb as
  rw [hid] at hgrant
  simp only [loadLines, OverLink.bind_run, hrun, hf, Option.any_some, decide_eq_true_eq]
  by_cases hpending : b.resolution = .pending
  · simp only [hpending, ↓reduceIte, update_attach_eq_grant]
    rfl
  · have hadvanced : advanced b.resolution = b.resolution := by
      unfold advanced
      split
      · contradiction
      · rfl
    simp only [hpending, ↓reduceIte, hgrant, hadvanced]
    rfl

theorem loadLines_run (ha : r.Accounted l.target) (he : l.target.type? type = some e)
    (hsource : e.sourceFile = some source) (ps : List PendingLine)
    (hps : ∀ p ∈ ps, (p.id, Site.line p.file p.line) ∈ r.sites) :
    ∃ done resolved r' l', loadLines type source ps r l = ((done, resolved, r'), l') ∧
      Tried r l resolved r' l' ∧ done ⊆ ps.map (·.id) ∧ resolved ⊆ ps.map (·.id) ∧
      (l.Reliable → ∀ p ∈ ps, Covered (r', l') p.id type) := by
  induction ps generalizing r l with
  | nil => exact ⟨[], [], r, l, rfl, .idle r rfl rfl, by simp, by simp, by simp⟩
  | cons p ps ih =>
    obtain ⟨b, hb, hid, hsite⟩ := mem_sites.mp (hps p (by simp))
    have hlt : p.id < r.nextId := hid ▸ ha.issued b hb
    rcases loadLine_run ha he hsource hb hid hsite with
      ⟨l₁, hrun, ht, hr, hcov⟩ | ⟨news, l₁, hrun, htype, hgrants⟩
    · obtain ⟨done, resolved, r', l', hrun', htried, hdone, hres, hcov'⟩ :=
        ih (l := l₁) (ht ▸ ha) (ht ▸ he) fun p hp => hps p (List.mem_cons_of_mem _ hp)
      refine ⟨done, resolved, r', l', ?_, ?_, ?_, ?_, ?_⟩
      · rw [loadLines_cons_false ps hrun, hrun']
      · exact (Tried.idle r ht hr).trans htried
      · exact List.subset_cons_of_subset _ hdone
      · exact List.subset_cons_of_subset _ hres
      · intro hl p' hp'
        rcases List.mem_cons.mp hp' with rfl | hp'
        · exact (hcov hl).follows (htried.follows (ht ▸ ha)) hlt (ht ▸ he)
        · exact hcov' (hl.of_eq (ht ▸ hl.connected) hr) p' hp'
    · have hg : r.Grants l b news (advanced b.resolution) l₁ := by
        apply hgrants
        · cases b.resolution <;> simp [advanced]
        · cases b.resolution <;> simp [advanced]
        · intro hres
          rw [hres]
          rfl
      have htried : Tried r l (if b.resolution = .pending then [b.id] else [])
          (r.grant b.id (news.map Request.attachment) (advanced b.resolution)) l₁ := by
        split
        · rename_i hpending
          exact hg.tried_resolved ha (by rw [hpending]; rfl)
        · exact hg.tried_same ha (by unfold advanced; split <;> [contradiction; rfl])
      have he₁ : l₁.target.type? type = some e := by rw [hg.adds.type?, he]
      obtain ⟨done, resolved, r', l', hrun', htried', hdone, hres, hcov⟩ :=
        ih (ha.grant hg) he₁ fun p hp => by
          rw [htried.sites]
          exact hps p (List.mem_cons_of_mem _ hp)
      rw [hid] at htried hrun' htried'
      refine ⟨p.id :: done, _, r', l', ?_, htried.trans htried', ?_, ?_, ?_⟩
      · rw [loadLines_cons_true ha ps hb hid hrun]
        simp only [hrun']
        split <;> rfl
      · exact List.cons_subset_cons _ hdone
      · split
        · exact List.cons_subset_cons _ hres
        · exact List.subset_cons_of_subset _ hres
      · intro hl p' hp'
        rcases List.mem_cons.mp hp' with rfl | hp'
        · have hnow := hg.covered ha (.inr htype)
          rw [hid] at hnow
          exact hnow.follows (htried'.follows (hid ▸ ha.grant hg)) hlt he₁
        · exact hcov (hg.adds.reliable hl) p' hp'

end Lines

/-! ### Types -/

/-- Loads came in. Breakpoints ask for what they did before, the right ones wait, and only
registered ones are reported. -/
structure Loads (s : Registry × Link) (ids : List BreakpointId) (s' : Registry × Link) : Prop
    extends Moves s s' where
  reliable : s.2.Reliable → s'.2.Reliable
  sites : s'.1.sites = s.1.sites
  known : ∀ id ∈ ids, ∃ site, (id, site) ∈ s.1.sites

namespace Loads

variable {s s' s'' : Registry × Link} {ids more : List BreakpointId}

theorem trans (h : Loads s ids s') (h' : Loads s' more s'') {all : List BreakpointId}
    (hall : ∀ id ∈ all, id ∈ ids ∨ id ∈ more) : Loads s all s'' :=
  ⟨⟨h.steps.trans h'.steps, h'.listed⟩, fun hl => h'.reliable (h.reliable hl),
    h'.sites.trans h.sites,
    fun id hid => (hall id hid).elim (h.known id) fun hm => h.sites ▸ h'.known id hm⟩

/-- Calls that change nothing. -/
theorem idle (hs : r.Listed) (ht : l'.target = l.target) (hr : l'.refuses = l.refuses) :
    Loads (r, l) [] (r, l') :=
  ⟨⟨.single (.elapse (ht ▸ .refl _) hr), hs⟩, fun hl => hl.of_eq (ht ▸ hl.connected) hr, rfl,
    by simp⟩

/-- A call that changed nothing came before. -/
theorem counted (hs : r.Listed) (h : Loads (r, l.counted) ids s') : Loads (r, l) ids s' := by
  have hasked : Loads (r, l) [] (r, l.counted) := idle hs rfl rfl
  exact hasked.trans h fun _ hid => .inr hid

end Loads

theorem Sound.mem_waitingIds {t : Target} (h : r.Sound t) {name : String} {id : BreakpointId} :
    id ∈ (r.pendingTypes.filter (·.1 = name)).map (·.2) ↔ (name, id) ∈ r.waitingTypes := by
  rw [h.types, List.mem_map]
  constructor
  · rintro ⟨⟨n, i⟩, hw, rfl⟩
    obtain ⟨hm, hn⟩ := List.mem_filter.mp hw
    obtain rfl : n = name := by simpa using hn
    exact hm
  · exact fun hw => ⟨(name, id), List.mem_filter.mpr ⟨hw, by simp⟩, rfl⟩

theorem Sound.waitingIds_nodup {t : Target} (h : r.Sound t) (name : String) :
    ((r.pendingTypes.filter (·.1 = name)).map (·.2)).Nodup := by
  rw [h.types]
  exact (List.filter_sublist.map _).nodup h.waitingTypes_nodup

/-- A method misses nothing in a type for which it does not wait. -/
theorem Sound.covered_method (h : r.Sound l.target) {b : Breakpoint} (hb : b ∈ r.breakpoints)
    (he : l.target.type? type = some e) (hmethod : b.site.isLine = false)
    (hno : (e.name, b.id) ∉ r.waitingTypes) : Covered (r, l) b.id type := by
  refine h.covered hb he fun hconcerns _ => .inl ?_
  by_contra hres
  cases hsite : b.site with
  | line => simp [hsite, Site.isLine] at hmethod
  | method owner name params =>
    rw [hsite] at hconcerns
    obtain rfl : e.name = owner := hconcerns
    exact hno (mem_waitingTypes.mpr ⟨b, hb, rfl, ⟨name, params, hsite⟩, hres⟩)

theorem loadType_run (h : r.Sound l.target) (he : l.target.type? type = some e) :
    ∃ done r' l', r.loadType type e.name l = ((done, r'), l') ∧ Loads (r, l) done (r', l') ∧
      (l.Reliable → ∀ b ∈ r.breakpoints, b.site.isLine = false → Covered (r', l') b.id type) := by
  have ha := h.toAccounted
  obtain ⟨done, waiting, r', l', hrun, htried, hperm, hcov⟩ :=
    loadMethods_run ha he _ (fun id hid => h.mem_waitingIds.mp hid) (h.waitingIds_nodup e.name)
  have happart := (List.nodup_append.mp (hperm.nodup_iff.mpr (h.waitingIds_nodup e.name))).2.2
  have hin {id : BreakpointId} (hid : id ∈ done) : (e.name, id) ∈ r.waitingTypes :=
    h.mem_waitingIds.mp (hperm.subset (List.mem_append_left _ hid))
  refine ⟨done, { r' with
    pendingTypes := r'.pendingTypes.filter fun w => w.1 ≠ e.name || waiting.contains w.2 },
    l', ?_, ⟨⟨?_, htried.listed h.toListed rfl ?_ ?_⟩, htried.reliable, htried.sites, ?_⟩, ?_⟩
  · simp only [loadType, OverLink.bind_run, hrun]
    rfl
  · exact htried.steps.tail (.relist r'.pendingLines _)
  · refine htried.pendingLines.trans (List.filter_eq_self.mpr fun p hp => ?_).symm
    have hno : p.id ∉ done := fun hd => ha.waiting_apart (h.lines ▸ hp) (hin hd)
    simpa using hno
  · rw [htried.pendingTypes]
    refine List.filter_congr ?_
    rintro ⟨n, id⟩ hw
    rw [h.types] at hw
    by_cases hn : n = e.name
    · subst hn
      have hid := hperm.symm.subset (h.mem_waitingIds.mpr hw)
      by_cases hd : id ∈ done
      · have hwait : id ∉ waiting := fun hm => happart id hd id hm rfl
        simp [hd, hwait]
      · have hwait : id ∈ waiting := (List.mem_append.mp hid).resolve_left hd
        simp [hd, hwait]
    · have hd : id ∉ done := fun hd => hn (ha.waitingType_unique hw (hin hd))
      simp [hn, hd]
  · intro id hid
    obtain ⟨b, hb, hbi, ⟨name, params, hsite⟩, -⟩ := mem_waitingTypes.mp (hin hid)
    exact ⟨_, mem_sites.mpr ⟨b, hb, hbi, hsite⟩⟩
  · intro hl b hb hmethod
    by_cases hwait : (e.name, b.id) ∈ r.waitingTypes
    · exact hcov hl b.id (h.mem_waitingIds.mpr hwait)
    · have hlater := (h.covered_method hb he hmethod hwait).follows (htried.follows ha)
        (ha.issued b hb) he
      exact hlater

theorem Sound.mem_pendingFor {t : Target} (h : r.Sound t) {source : String} {p : PendingLine} :
    p ∈ r.pendingFor source ↔
      p ∈ r.waitingLines ∧ SourcePath.fileName p.file = SourcePath.fileName source := by
  rw [pendingFor, h.lines, List.mem_filter, decide_eq_true_eq]

theorem Sound.pendingFor_nodup {t : Target} (h : r.Sound t) (source : String) :
    ((r.pendingFor source).map (·.id)).Nodup := by
  rw [pendingFor, h.lines]
  exact (List.filter_sublist.map _).nodup h.waitingLines_nodup

/-- A line misses nothing in a type for whose file it does not wait. -/
theorem Sound.covered_line (h : r.Sound l.target) {b : Breakpoint} (hb : b ∈ r.breakpoints)
    (he : l.target.type? type = some e) {source : String} (hsource : e.sourceFile = some source)
    {file : String} {line : Nat} (hsite : b.site = .line file line)
    (hno : ⟨b.id, file, line⟩ ∉ r.pendingFor source) : Covered (r, l) b.id type := by
  refine h.covered hb he fun hconcerns _ => .inl ?_
  by_contra hres
  rw [hsite] at hconcerns
  obtain ⟨s, hs, hmatch⟩ := hconcerns
  obtain rfl : source = s := Option.some.inj (hsource.symm.trans hs)
  exact hno (h.mem_pendingFor.mpr ⟨mem_waitingLines.mpr ⟨b, hb, rfl, hsite, hres⟩,
    SourcePath.fileName_eq_of_matches hmatch⟩)

theorem Sound.covered_of_no_file (h : r.Sound l.target) {b : Breakpoint} (hb : b ∈ r.breakpoints)
    (he : l.target.type? type = some e) (hline : b.site.isLine = true)
    (hnone : e.sourceFile = none) : Covered (r, l) b.id type := by
  refine h.covered hb he fun hconcerns _ => ?_
  cases hsite : b.site with
  | line file n =>
    rw [hsite] at hconcerns
    obtain ⟨source, hsource, -⟩ := hconcerns
    rw [hnone] at hsource
    contradiction
  | method => simp [hsite, Site.isLine] at hline

theorem loadSource_run (h : r.Sound l.target) (he : l.target.type? type = some e)
    {source : String} (hsource : e.sourceFile = some source) :
    ∃ done r' l', r.loadSource type source l = ((done, r'), l') ∧ Loads (r, l) done (r', l') ∧
      (l.Reliable → ∀ b ∈ r.breakpoints, b.site.isLine = true → Covered (r', l') b.id type) := by
  have ha := h.toAccounted
  have hps : ∀ p ∈ r.pendingFor source, (p.id, Site.line p.file p.line) ∈ r.sites := by
    intro p hp
    obtain ⟨b, hb, hid, hsite, -⟩ := mem_waitingLines.mp (h.mem_pendingFor.mp hp).1
    exact mem_sites.mpr ⟨b, hb, hid, hsite⟩
  obtain ⟨done, resolved, r', l', hrun, htried, hdone, hres, hcov⟩ :=
    loadLines_run ha he hsource _ hps
  have hin {id : BreakpointId} (hid : id ∈ resolved) : ∃ p ∈ r.pendingFor source, p.id = id :=
    List.mem_map.mp (hres hid)
  refine ⟨done, { r' with pendingLines := r'.pendingLines.filter fun p =>
    !(SourcePath.fileName p.file = SourcePath.fileName source && resolved.contains p.id) }, l', ?_,
    ⟨⟨?_, htried.listed h.toListed rfl ?_ ?_⟩, htried.reliable, htried.sites, ?_⟩, ?_⟩
  · simp only [loadSource, OverLink.bind_run, hrun]
    rfl
  · exact htried.steps.tail (.relist _ r'.pendingTypes)
  · rw [htried.pendingLines]
    refine List.filter_congr fun p hp => ?_
    rw [h.lines] at hp
    by_cases hr : p.id ∈ resolved
    · obtain ⟨p', hp', hid⟩ := hin hr
      obtain rfl := ha.waitingLine_unique hp (h.mem_pendingFor.mp hp').1 hid.symm
      simp [hr, (h.mem_pendingFor.mp hp').2]
    · simp [hr]
  · refine htried.pendingTypes.trans (List.filter_eq_self.mpr ?_).symm
    rintro ⟨n, id⟩ hw
    have hno : id ∉ resolved := by
      intro hr
      obtain ⟨p, hp, rfl⟩ := hin hr
      exact ha.waiting_apart (h.mem_pendingFor.mp hp).1 (h.types ▸ hw)
    simpa using hno
  · intro id hid
    obtain ⟨p, hp, rfl⟩ := List.mem_map.mp (hdone hid)
    exact ⟨_, hps p hp⟩
  · intro hl b hb hline
    cases hsite : b.site with
    | method => simp [hsite, Site.isLine] at hline
    | line file n =>
      by_cases hwait : ⟨b.id, file, n⟩ ∈ r.pendingFor source
      · exact hcov hl _ hwait
      · have hlater := (h.covered_line hb he hsource hsite hwait).follows (htried.follows ha)
          (ha.issued b hb) he
        exact hlater

theorem onTypeLoaded_run (h : r.Sound l.target) (type : TypeId) :
    ∃ ids r' l', r.onTypeLoaded type l = ((ids, r'), l') ∧ Loads (r, l) ids (r', l') ∧
      (l.Reliable → ∀ e, l.target.type? type = some e → ∀ b ∈ r.breakpoints,
        Covered (r', l') b.id type) := by
  simp only [onTypeLoaded, OverLink.bind_run, Remote.typeName, Link.ask_result?]
  cases hname : l.answer .typeName (·.typeName type) with
  | error fault =>
    refine ⟨[], r, l.counted, rfl, .counted h.toListed (.idle h.toListed rfl rfl), ?_⟩
    intro hl e he
    rw [hl.answer, Target.typeName_of_type hl.connected he] at hname
    contradiction
  | ok name =>
    obtain ⟨e, he, rfl⟩ := Target.typeName_ok (Link.answer_ok hname)
    obtain ⟨methods, r₁, l₁, hrun, hload, hmethods⟩ := loadType_run (l := l.counted) h he
    have hs₁ : r₁.Sound l₁.target := hload.sound h
    have hrel (hl : l.Reliable) : l₁.Reliable := hload.reliable (hl.of_eq hl.connected rfl)
    obtain ⟨e₁, he₁, -⟩ := (hload.follows h).types he
    -- Methods were covered by name; what is left are the lines, which loads found by file.
    have hboth {s' : Registry × Link} (hf : Follows (r₁, l₁) s')
        (hlines : l.Reliable → ∀ b ∈ r₁.breakpoints, b.site.isLine = true → Covered s' b.id type)
        (hl : l.Reliable) : ∀ b ∈ r.breakpoints, Covered s' b.id type := by
      intro b hb
      cases hkind : b.site.isLine with
      | false =>
        refine (hmethods (hl.of_eq hl.connected rfl) b hb hkind).follows hf ?_ he₁
        exact Nat.lt_of_lt_of_le (h.issued b hb) (hload.follows h).nextId
      | true =>
        have hs : (b.id, b.site) ∈ r₁.sites := hload.sites ▸ mem_sites.mpr ⟨b, hb, rfl, rfl⟩
        obtain ⟨c, hc, hid, hsite⟩ := mem_sites.mp hs
        exact hid ▸ hlines hl c hc (by rw [hsite, hkind])
    have hsource₁ : (sourceOf type l₁).2 = l₁.counted := by rw [sourceOf_run]
    simp only [Except.toOption, OverLink.bind_run, hrun, hsource₁]
    cases hsource : (sourceOf type l₁).1 with
    | none =>
      have hidle : Loads (r₁, l₁) [] (r₁, l₁.counted) := .idle hs₁.toListed rfl rfl
      refine ⟨methods, r₁, l₁.counted, rfl, ?_, fun hl _ _ => hboth (hidle.follows hs₁) ?_ hl⟩
      · exact (Loads.counted h.toListed hload).trans hidle fun id hid => .inl hid
      · intro hl b hb hline
        have hnone : e₁.sourceFile = none := by rw [← sourceOf_of_type (hrel hl) he₁, hsource]
        exact (hs₁.covered_of_no_file hb he₁ hline hnone).follows (hidle.follows hs₁)
          (hs₁.issued b hb) he₁
    | some source =>
      obtain ⟨d, hd, hds⟩ := sourceOf_some hsource
      obtain ⟨lines, r₂, l₂, hrun₂, hload₂, hlines⟩ := loadSource_run (l := l₁.counted) hs₁ hd hds
      have hload₂ := Loads.counted hs₁.toListed hload₂
      refine ⟨methods ++ lines, r₂, l₂, ?_, ?_, fun hl _ _ => hboth (hload₂.follows hs₁) ?_ hl⟩
      · simp only [OverLink.bind_run, hrun₂]
        rfl
      · exact (Loads.counted h.toListed hload).trans hload₂ fun id hid => List.mem_append.mp hid
      · exact fun hl b hb hline => hlines ((hrel hl).of_eq (hrel hl).connected rfl) b hb hline

/-! ### Rescans -/

theorem mem_addNew {ids more : List BreakpointId} {id : BreakpointId} :
    id ∈ addNew ids more ↔ id ∈ ids ∨ id ∈ more := by
  induction more generalizing ids with
  | nil => simp [addNew]
  | cons i more ih =>
    have hstep : addNew ids (i :: more) = addNew (if i ∈ ids then ids else ids ++ [i]) more := rfl
    rw [hstep, ih]
    split
    · rename_i hi
      simp only [List.mem_cons]
      exact ⟨fun h => h.imp (fun h => h) .inr,
        fun h => h.elim .inl fun h => h.elim (fun he => .inl (he ▸ hi)) .inr⟩
    · simp [or_assoc]

theorem rescanTypes_run (h : r.Sound l.target) (types : List TypeId) (changed : List BreakpointId)
    (hchanged : ∀ id ∈ changed, ∃ site, (id, site) ∈ r.sites) :
    ∃ ids r' l', rescanTypes types changed r l = ((ids, r'), l') ∧ Loads (r, l) ids (r', l') ∧
      (l.Reliable → ∀ type ∈ types, ∀ e, l.target.type? type = some e → ∀ b ∈ r.breakpoints,
        Covered (r', l') b.id type) := by
  induction types generalizing r l changed with
  | nil =>
    refine ⟨changed, r, l, rfl, ?_, by simp⟩
    exact ⟨⟨.refl, h.toListed⟩, fun hl => hl, rfl, hchanged⟩
  | cons type types ih =>
    obtain ⟨more, r₁, l₁, hrun, hload, hcov⟩ := onTypeLoaded_run h type
    have hs₁ : r₁.Sound l₁.target := hload.sound h
    have hknown : ∀ id ∈ addNew changed more, ∃ site, (id, site) ∈ r₁.sites := by
      intro id hid
      rw [hload.sites]
      exact (mem_addNew.mp hid).elim (hchanged id) (hload.known id)
    obtain ⟨ids, r₂, l₂, hrun₂, hload₂, hcov₂⟩ := ih hs₁ _ hknown
    refine ⟨ids, r₂, l₂, ?_, hload.trans hload₂ fun id hid => .inr hid, ?_⟩
    · simp only [rescanTypes, OverLink.bind_run, hrun, hrun₂]
    · intro hl i hi e he b hb
      obtain ⟨e₁, he₁, -⟩ := (hload.follows h).types he
      rcases List.mem_cons.mp hi with rfl | hi
      · refine (hcov hl e he b hb).follows (hload₂.follows hs₁) ?_ he₁
        exact Nat.lt_of_lt_of_le (h.issued b hb) (hload.follows h).nextId
      · have hs : (b.id, b.site) ∈ r₁.sites := hload.sites ▸ mem_sites.mpr ⟨b, hb, rfl, rfl⟩
        obtain ⟨c, hc, hid, -⟩ := mem_sites.mp hs
        exact hid ▸ hcov₂ (hload.reliable hl) i hi e₁ he₁ c hc

theorem rescan_run (h : r.Sound l.target) :
    ∃ ids r' l', r.rescan l = ((ids, r'), l') ∧ Loads (r, l) ids (r', l') ∧
      (l.Reliable → ∀ type e, l.target.type? type = some e → e.loaded = true →
        ∀ b ∈ r.breakpoints, Covered (r', l') b.id type) := by
  simp only [rescan, OverLink.bind_run, Remote.listLoaded, Link.ask_result?]
  cases hlist : l.answer .listLoaded (·.listLoaded none) with
  | error fault =>
    refine ⟨[], r, l.counted, rfl, .counted h.toListed (.idle h.toListed rfl rfl), fun hl => ?_⟩
    rw [hl.answer, Target.listLoaded_of_connected hl.connected] at hlist
    contradiction
  | ok types =>
    have htypes := Target.listLoaded_ok (Link.answer_ok hlist)
    obtain ⟨ids, r', l', hrun, hload, hcov⟩ :=
      rescanTypes_run (l := l.counted) h types [] (by simp)
    refine ⟨ids, r', l', hrun, .counted h.toListed hload, fun hl type e he hloaded b hb => ?_⟩
    refine hcov (hl.of_eq hl.connected rfl) type ?_ e he b hb
    rw [htypes]
    obtain ⟨hm, hid⟩ := h.target.type?_eq_some.mp he
    exact List.mem_map.mpr ⟨e, List.mem_filter.mpr ⟨hm, by simp [hloaded]⟩, hid⟩

end Registry

end Debugger
