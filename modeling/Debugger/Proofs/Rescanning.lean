import Debugger.Proofs.RegistryFrame
import Debugger.Proofs.Reports
import Debugger.Proofs.Runs

/-!
Rescans: after one of them no waiting breakpoint would get a request in a loaded type, so that
another one finds nothing to do.
-/

namespace Debugger

/-- A location of the site lies in a type that has code for it. -/
theorem Site.Holds.offers {site : Site} {e : TypeEntry} {location : Location}
    (h : site.Holds e location) : site.Offers e := by
  cases site with
  | line file n => exact h.2
  | method owner name params =>
    obtain ⟨m, hm, -, hname, hparams⟩ := h
    exact ⟨m, hm, hname, hparams⟩

/-- The same types are there, loaded or not. -/
def Target.SameTypes (t t' : Target) : Prop :=
  t'.types = t.types

namespace Registry

/-- No breakpoint misses code in the type. -/
def CaughtUp (r : Registry) (t : Target) (type : TypeId) : Prop :=
  ∀ b ∈ r.breakpoints, ∀ e, t.type? type = some e → b.site.Concerns r.settings.sourceMatch e →
    b.site.Offers e → b.resolution = .resolved ∨ type ∈ b.attached

/-! ### Nothing to do -/

section Quiet

variable {r : Registry} {l l' : Link} {type : TypeId} {e : TypeEntry}

theorem loadMethods_quiet (ha : r.Accounted l.target) (he : l.target.type? type = some e)
    (hup : r.CaughtUp l.target type) (ids : List BreakpointId)
    (hids : ∀ id ∈ ids, (e.name, id) ∈ r.waitingTypes) :
    ∃ l', loadMethods type ids r l = (([], ids, r), l') ∧ l.Adds l' [] := by
  induction ids generalizing l with
  | nil => exact ⟨l, rfl, .nothing rfl rfl⟩
  | cons id ids ih =>
    obtain ⟨b, hb, rfl, ⟨name, params, hsite⟩, hres⟩ := mem_waitingTypes.mp (hids id (by simp))
    obtain ⟨news, hat⟩ :=
      Attachment.toMethod_attaches ha.target b.enabled type e.name name params
    generalize hout : Attachment.toMethod b.enabled type name params l = out at hat
    obtain ⟨as, l₁⟩ := out
    obtain rfl : news = [] := by
      refine List.eq_nil_iff_forall_not_mem.mpr fun q hq => ?_
      obtain ⟨-, e', he', hholds⟩ := hat.placed q hq
      obtain rfl : e = e' := Option.some.inj (he.symm.trans he')
      rw [← hsite] at hholds
      -- A method that waits is attached nowhere, so it would miss the place of the request.
      rcases hup b hb e he (by rw [hsite]; rfl) hholds.offers with hdone | hin
      · exact hres hdone
      · rw [ha.method_unattached hb hsite hres] at hin
        exact List.not_mem_nil hin
    have ht : l₁.target = l.target := hat.adds.target_eq
    obtain ⟨l', hrun, hadds⟩ :=
      ih (ht ▸ ha) (ht ▸ he) (ht ▸ hup) fun id hid => hids id (List.mem_cons_of_mem _ hid)
    refine ⟨l', ?_, hat.adds.trans hadds⟩
    rw [loadMethods_cons_nil ids (ha.find?_eq_some.mpr ⟨hb, rfl⟩) hsite (hout.trans ?_), hrun]
    rw [show as = [] from hat.result]

theorem loadLines_quiet (ha : r.Accounted l.target) (he : l.target.type? type = some e)
    (hup : r.CaughtUp l.target type) {source : String} (hsource : e.sourceFile = some source)
    (ps : List PendingLine) (hps : ∀ p ∈ ps, p ∈ r.waitingLines) :
    ∃ l', loadLines type source ps r l = (([], [], r), l') ∧ l.Adds l' [] := by
  induction ps generalizing l with
  | nil => exact ⟨l, rfl, .nothing rfl rfl⟩
  | cons p ps ih =>
    obtain ⟨b, hb, hid, hsite, hres⟩ := mem_waitingLines.mp (hps p (by simp))
    rcases loadLine_run ha he hsource hb hid hsite with
      ⟨l₁, hrun, ht, hr, -⟩ | ⟨news, l₁, -, hnew, hgrants⟩
    · obtain ⟨l', hrun', hadds⟩ :=
        ih (ht ▸ ha) (ht ▸ he) (ht ▸ hup) fun p hp => hps p (List.mem_cons_of_mem _ hp)
      refine ⟨l', ?_, (Link.Adds.nothing ht hr).trans hadds⟩
      rw [loadLines_cons_false ps hrun, hrun']
    · exfalso
      have g : r.Grants l b news .resolved l₁ :=
        hgrants .resolved (by simp) (by simp) fun _ => rfl
      obtain ⟨q, hq, rfl⟩ := List.mem_map.mp hnew
      obtain ⟨e', he', hconcerns, hholds⟩ := g.placed q hq
      have hapart := (List.nodup_append.mp (g.apart (by rw [hsite]; rfl))).2.2
      rcases hup b hb e' he' hconcerns hholds.offers with hdone | hin
      · exact hres hdone
      · exact hapart _ hin _ hnew rfl

theorem loadType_quiet (h : r.Sound l.target) (he : l.target.type? type = some e)
    (hup : r.CaughtUp l.target type) :
    ∃ l', r.loadType type e.name l = (([], r), l') ∧ l.Adds l' [] := by
  obtain ⟨l', hrun, hadds⟩ := loadMethods_quiet h.toAccounted he hup _
    fun id hid => h.mem_waitingIds.mp hid
  have htypes : r.pendingTypes.filter (fun w => w.1 ≠ e.name ||
      ((r.pendingTypes.filter (·.1 = e.name)).map (·.2)).contains w.2) = r.pendingTypes := by
    refine List.filter_eq_self.mpr fun w hw => ?_
    by_cases hn : w.1 = e.name
    · have hid : w.2 ∈ (r.pendingTypes.filter (·.1 = e.name)).map (·.2) :=
        List.mem_map.mpr ⟨w, List.mem_filter.mpr ⟨hw, by simpa using hn⟩, rfl⟩
      simp only [List.contains_iff_mem.mpr hid, Bool.or_true]
    · simp [hn]
  refine ⟨l', ?_, hadds⟩
  simp only [loadType, OverLink.bind_run, hrun]
  exact congrArg (fun w => (([], { r with pendingTypes := w }), l')) htypes

theorem loadSource_quiet (h : r.Sound l.target) (he : l.target.type? type = some e)
    (hup : r.CaughtUp l.target type) {source : String} (hsource : e.sourceFile = some source) :
    ∃ l', r.loadSource type source l = (([], r), l') ∧ l.Adds l' [] := by
  obtain ⟨l', hrun, hadds⟩ := loadLines_quiet h.toAccounted he hup hsource
    (r.pendingFor source) fun p hp => (h.mem_pendingFor.mp hp).1
  have hlines : r.pendingLines.filter (fun p =>
      !(SourcePath.fileName p.file = SourcePath.fileName source &&
        ([] : List BreakpointId).contains p.id)) = r.pendingLines :=
    List.filter_eq_self.mpr fun p _ => by simp
  refine ⟨l', ?_, hadds⟩
  simp only [loadSource, OverLink.bind_run, hrun]
  exact congrArg (fun ps => (([], { r with pendingLines := ps }), l')) hlines

/-- A type that no breakpoint misses changes nothing, whether or not calls fail. -/
theorem onTypeLoaded_quiet (h : r.Sound l.target) (hup : r.CaughtUp l.target type) :
    ∃ l', r.onTypeLoaded type l = (([], r), l') ∧ l.Adds l' [] := by
  simp only [onTypeLoaded, OverLink.bind_run, Remote.typeName, Link.ask_result?]
  cases hname : l.answer .typeName (·.typeName type) with
  | error fault => exact ⟨l.counted, rfl, .nothing rfl rfl⟩
  | ok name =>
    obtain ⟨e, he, rfl⟩ := Target.typeName_ok (Link.answer_ok hname)
    obtain ⟨l₁, hmethods, hadds⟩ := loadType_quiet (l := l.counted) h he hup
    have ht : l₁.target = l.target := hadds.target_eq
    have hasked : (sourceOf type l₁).2 = l₁.counted := by rw [sourceOf_run]
    simp only [Except.toOption, OverLink.bind_run, hmethods, hasked]
    cases hsource : (sourceOf type l₁).1 with
    | none => exact ⟨l₁.counted, rfl, hadds.counted.trans (.nothing rfl rfl)⟩
    | some source =>
      obtain ⟨d, hd, hds⟩ := sourceOf_some hsource
      obtain ⟨l₂, hlines, hadds₂⟩ :=
        loadSource_quiet (l := l₁.counted) (ht ▸ h) hd (ht ▸ hup) hds
      refine ⟨l₂, ?_, hadds.counted.trans hadds₂.counted⟩
      simp only [OverLink.bind_run, hlines]
      rfl

theorem rescanTypes_quiet (h : r.Sound l.target) (types : List TypeId)
    (hup : ∀ type ∈ types, r.CaughtUp l.target type) :
    ∃ l', rescanTypes types [] r l = (([], r), l') ∧ l.Adds l' [] := by
  induction types generalizing l with
  | nil => exact ⟨l, rfl, .nothing rfl rfl⟩
  | cons type types ih =>
    obtain ⟨l₁, hrun, hadds⟩ := onTypeLoaded_quiet h (hup type (by simp))
    have ht : l₁.target = l.target := hadds.target_eq
    obtain ⟨l₂, hrun₂, hadds₂⟩ :=
      ih (ht ▸ h) fun type htype => ht ▸ hup type (List.mem_cons_of_mem _ htype)
    refine ⟨l₂, ?_, hadds.trans hadds₂⟩
    simp only [rescanTypes, OverLink.bind_run, hrun]
    exact hrun₂

theorem rescan_quiet (h : r.Sound l.target)
    (hup : ∀ type e, l.target.type? type = some e → e.loaded = true → r.CaughtUp l.target type) :
    ∃ l', r.rescan l = (([], r), l') ∧ l.Adds l' [] := by
  simp only [rescan, OverLink.bind_run, Remote.listLoaded, Link.ask_result?]
  cases hlist : l.answer .listLoaded (·.listLoaded none) with
  | error fault => exact ⟨l.counted, rfl, .nothing rfl rfl⟩
  | ok types =>
    have htypes := Target.listLoaded_ok (Link.answer_ok hlist)
    obtain ⟨l', hrun, hadds⟩ := rescanTypes_quiet (l := l.counted) h types fun type htype => by
      rw [htypes] at htype
      obtain ⟨e, he, rfl⟩ := List.mem_map.mp htype
      obtain ⟨he, hloaded⟩ := List.mem_filter.mp he
      exact hup e.id e (h.target.type?_eq_some.mpr ⟨he, rfl⟩) (by simpa using hloaded)
    exact ⟨l', hrun, hadds.counted⟩

end Quiet

/-! ### Catching up -/

/-- Attaching defines and loads no types. -/
theorem sameTypes_steady : Steady fun l l' => l.target.SameTypes l'.target := by
  have hrefl (t : Target) : t.SameTypes t := rfl
  have hlift (l : Link) (calls : Nat) (t : Target) (h : l.target.SameTypes t) :
      l.target.SameTypes ({ l with calls, target := t } : Link).target := h
  refine ⟨fun l => hrefl l.target, fun h h' => h'.trans h, fun c act => ?_, fun location => ?_,
    fun id enabled => ?_⟩
  · exact Link.call_leads hlift hrefl c hrefl
  · refine Link.order_leads hlift hrefl _ fun t a t' hok => ?_
    rw [(Target.createRequest_ok hok).2]
    rfl
  · refine Link.orderOnly_leads hlift hrefl _ fun t t' hok => ?_
    rw [Target.setRequestEnabled_ok hok]
    rfl

/-- A rescan on a target that answers misses no loaded type. -/
theorem rescan_catches_up {r : Registry} {l : Link} (h : r.Sound l.target) (hl : l.Reliable)
    {type : TypeId} {e : TypeEntry} (he : (r.rescan l).2.target.type? type = some e)
    (hloaded : e.loaded = true) : (r.rescan l).1.2.CaughtUp (r.rescan l).2.target type := by
  have htypes : l.target.SameTypes (r.rescan l).2.target := sameTypes_steady.rescan r l
  obtain ⟨ids, r', l', hrun, hload, hcov⟩ := rescan_run h
  rw [hrun] at he htypes ⊢
  rw [Target.type?, htypes] at he
  intro b hb d hd hconcerns hoffers
  have hs : (b.id, b.site) ∈ r.sites := hload.sites ▸ mem_sites.mpr ⟨b, hb, rfl, rfl⟩
  obtain ⟨c, hc, hid, -⟩ := mem_sites.mp hs
  exact hcov hl type e he hloaded c hc b hb hid.symm d hd hconcerns hoffers

/-- Loads report exactly what they did, and a rescan leaves nothing to do. Whatever was done before
and whatever failed then: where calls succeed now, a notification and a rescan return each
breakpoint that gained requests once, and leave the others as they were. A second rescan returns
nothing and changes neither the registry nor the target. -/
theorem rescan_idempotent (settings : BreakpointSettings) (refuses : Nat → Call → Option Fault)
    (acts : List Act) {l : Link} (hl : l.Reliable)
    (ht : l.target = (run acts (start settings refuses)).2.target) :
    let r := (run acts (start settings refuses)).1
    (∀ type, (r.onTypeLoaded type l).1.1.Nodup ∧
      r.Reports (r.onTypeLoaded type l).1.1 (r.onTypeLoaded type l).1.2) ∧
    ((r.rescan l).1.1.Nodup ∧ r.Reports (r.rescan l).1.1 (r.rescan l).1.2) ∧
    ((r.rescan l).1.2.rescan (r.rescan l).2).1 = ([], (r.rescan l).1.2) ∧
    ((r.rescan l).1.2.rescan (r.rescan l).2).2.target = (r.rescan l).2.target := by
  intro r
  have h : r.Sound l.target := ht ▸ run_sound (start_sound settings refuses) acts
  obtain ⟨hreports, hnodup⟩ := rescan_reports r l
  obtain ⟨ids, r', l', hrun, hload, -⟩ := rescan_run h
  have hsound : (r.rescan l).1.2.Sound (r.rescan l).2.target := by
    rw [hrun]
    exact hload.sound h
  obtain ⟨l'', hagain, hadds⟩ :=
    rescan_quiet hsound fun type e he hloaded => rescan_catches_up h hl he hloaded
  refine ⟨fun type => ⟨onTypeLoaded_nodup h type, onTypeLoaded_reports r type l⟩,
    ⟨hnodup, hreports⟩, ?_, ?_⟩
  · rw [hagain]
  · rw [hagain]
    exact hadds.target_eq

/-- The request was refused when the breakpoint was registered, and the rescan makes up for it. -/
theorem rescan_idempotent_refused : ∃ refuses acts,
    let s := run acts (start {} refuses)
    let l : Link := { target := s.2.target }
    l.Reliable ∧ (s.1.rescan l).1.1 = [1] ∧
      ((s.1.rescan l).1.2.rescan (s.1.rescan l).2).1.1 = [] := by
  let refusal (_ : Nat) (c : Call) : Option Fault :=
    if c = .createRequest then some .disconnected else none
  let steps : List Act :=
    [.change (.define { name := "a.B", sourceFile := some "B.kt", lines := [3] } true),
      .register { site := .line "B.kt" 3 }]
  obtain ⟨refuses, acts, hconnected, hids⟩ : ∃ refuses acts,
      (run acts (start {} refuses)).2.target.connected = true ∧
        ((run acts (start {} refuses)).1.rescan
          { target := (run acts (start {} refuses)).2.target }).1.1 = [1] :=
    ⟨refusal, steps, by decide +kernel⟩
  have hl : ({ target := (run acts (start {} refuses)).2.target } : Link).Reliable :=
    ⟨hconnected, fun _ _ => rfl⟩
  obtain ⟨-, -, hagain, -⟩ := rescan_idempotent {} refuses acts hl rfl
  exact ⟨refuses, acts, hl, hids, congrArg Prod.fst hagain⟩

end Registry

end Debugger
