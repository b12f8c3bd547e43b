import Debugger.Proofs.Loading

/-!
What loads report: exactly the breakpoints that gained requests, each of them once. The others are
as before.
-/

namespace Debugger

/-- The same breakpoint with other requests. -/
structure Breakpoint.Grows (b b' : Breakpoint) : Prop where
  same : b' = { b with
    requests := b'.requests, attached := b'.attached, resolution := b'.resolution }

namespace Breakpoint.Grows

variable {b b' b'' : Breakpoint}

theorem refl (b : Breakpoint) : b.Grows b := ⟨rfl⟩

theorem trans (h : b.Grows b') (h' : b'.Grows b'') : b.Grows b'' :=
  ⟨by rw [h'.same, h.same]⟩

theorem id_eq (h : b.Grows b') : b'.id = b.id := by rw [h.same]

theorem site_eq (h : b.Grows b') : b'.site = b.site := by rw [h.same]

theorem enabled_eq (h : b.Grows b') : b'.enabled = b.enabled := by rw [h.same]

theorem hits_eq (h : b.Grows b') : b'.hits = b.hits := by rw [h.same]

theorem hitCondition_eq (h : b.Grows b') : b'.hitCondition = b.hitCondition := by rw [h.same]

theorem attach (b : Breakpoint) (as : List Attachment) : b.Grows (b.attach as) :=
  ⟨by rw [attach_eq]⟩

theorem resolve (b : Breakpoint) (resolution : Resolution) : b.Grows { b with resolution } := ⟨rfl⟩

end Breakpoint.Grows

/-- A breakpoint before and after loads that reported these ids. It is among them if and only if it
gained requests, which come after those that it had. Otherwise it is the same. -/
structure Breakpoint.Reported (ids : List BreakpointId) (b b' : Breakpoint) : Prop where
  grows : b.Grows b'
  appended : b.requests <+: b'.requests
  reported : b.id ∈ ids ↔ b.requests.length < b'.requests.length
  same : b.id ∉ ids → b' = b

theorem Breakpoint.Reported.trans {ids more all : List BreakpointId} {b b' b'' : Breakpoint}
    (h : b.Reported ids b') (h' : b'.Reported more b'')
    (hall : ∀ id, id ∈ all ↔ id ∈ ids ∨ id ∈ more) : b.Reported all b'' := by
  have hreported := h'.reported
  rw [h.grows.id_eq] at hreported
  refine ⟨h.grows.trans h'.grows, h.appended.trans h'.appended, ?_, fun hno => ?_⟩
  · have := h.appended.length_le
    have := h'.appended.length_le
    rw [hall, h.reported, hreported]
    omega
  · rw [hall, not_or] at hno
    rw [h'.same (h.grows.id_eq ▸ hno.2), h.same hno.1]

/-- Whatever the link, what comes out of it has the property. -/
def Yields {α : Type} (x : OverLink α) (P : α → Prop) : Prop :=
  ∀ l, P (x l).1

namespace Yields

variable {α β : Type} {x : OverLink α} {f : α → OverLink β} {P : β → Prop} {Q : α → Prop}

theorem pure {b : β} (h : P b) : Yields (Pure.pure b) P :=
  fun _ => h

theorem bind (hx : Yields x Q) (hf : ∀ a, Q a → Yields (f a) P) : Yields (x >>= f) P :=
  fun l => hf (x l).1 (hx l) (x l).2

/-- What the target answers does not matter. -/
theorem ask (h : ∀ a, Yields (f a) P) : Yields (x >>= f) P :=
  fun l => h (x l).1 (x l).2

theorem imp (hx : Yields x Q) {Q' : α → Prop} (h : ∀ a, Q a → Q' a) : Yields x Q' :=
  fun l => h _ (hx l)

end Yields

namespace Registry

/-- The registry before and after loads that reported these ids. -/
structure Reports (r : Registry) (ids : List BreakpointId) (r' : Registry) : Prop where
  nextId : r'.nextId = r.nextId
  known : ∀ id ∈ ids, ∃ b ∈ r.breakpoints, b.id = id
  breakpoints : ∃ g : Breakpoint → Breakpoint, r'.breakpoints = r.breakpoints.map g ∧
    ∀ b, Breakpoint.Reported ids b (g b)

namespace Reports

variable {r r' r'' : Registry} {ids more all : List BreakpointId} {id : BreakpointId}

theorem of_eq (hnext : r'.nextId = r.nextId) (hbs : r'.breakpoints = r.breakpoints) :
    r.Reports [] r' :=
  ⟨hnext, by simp, fun b => b, by rw [hbs, List.map_id'], fun b =>
    ⟨.refl b, List.prefix_rfl, by simp, fun _ => rfl⟩⟩

theorem refl (r : Registry) : r.Reports [] r := .of_eq rfl rfl

theorem trans (h : r.Reports ids r') (h' : r'.Reports more r'')
    (hall : ∀ id, id ∈ all ↔ id ∈ ids ∨ id ∈ more) : r.Reports all r'' := by
  obtain ⟨g, hbs, hg⟩ := h.breakpoints
  obtain ⟨g', hbs', hg'⟩ := h'.breakpoints
  refine ⟨h'.nextId.trans h.nextId, fun id hid => ?_, g' ∘ g, by rw [hbs', hbs, List.map_map],
    fun b => (hg b).trans (hg' (g b)) hall⟩
  rcases (hall id).mp hid with hid | hid
  · exact h.known id hid
  · obtain ⟨c, hc, hcid⟩ := h'.known id hid
    rw [hbs] at hc
    obtain ⟨b, hb, rfl⟩ := List.mem_map.mp hc
    exact ⟨b, hb, (hg b).grows.id_eq.symm.trans hcid⟩

/-- A breakpoint that takes over requests is reported. -/
theorem attach (hid : ∃ b ∈ r.breakpoints, b.id = id) {as : List Attachment} (has : as ≠ []) :
    r.Reports [id] (r.attach id as) := by
  refine ⟨rfl, fun i hi => List.mem_singleton.mp hi ▸ hid, _, rfl, fun b => ?_⟩
  by_cases hb : b.id = id
  · have hlength : 0 < as.length := List.length_pos_of_ne_nil has
    simp only [if_pos hb]
    rw [Breakpoint.attach_eq]
    exact ⟨⟨rfl⟩, List.prefix_append _ _, by simpa [hb] using hlength, by simp [hb]⟩
  · simp only [if_neg hb]
    exact ⟨.refl b, List.prefix_rfl, by simpa using hb, fun _ => rfl⟩

/-- How far a reported breakpoint is attached may change as well. -/
theorem resolve (h : r.Reports ids r') (hid : id ∈ ids) (resolution : Resolution) :
    r.Reports ids (r'.update id ({ · with resolution })) := by
  obtain ⟨g, hbs, hg⟩ := h.breakpoints
  refine ⟨h.nextId, h.known, _, by rw [update, hbs, List.map_map], fun b => ?_⟩
  rw [Function.comp_apply]
  split
  · rename_i hgid
    rw [(hg b).grows.id_eq] at hgid
    exact ⟨(hg b).grows.trans (.resolve _ resolution), (hg b).appended, (hg b).reported,
      fun hno => absurd (hgid ▸ hid) hno⟩
  · exact hg b

end Reports

/-! ### Loads -/

theorem mem_of_find? {r : Registry} {id : BreakpointId} {b : Breakpoint}
    (h : r.find? id = some b) : ∃ b ∈ r.breakpoints, b.id = id :=
  ⟨b, List.mem_of_find?_eq_some h, by simpa using List.find?_some h⟩

theorem loadMethods_reports (type : TypeId) (ids : List BreakpointId) (r : Registry) :
    Yields (loadMethods type ids r) fun out =>
      r.Reports out.1 out.2.2 ∧ out.1.Sublist ids := by
  induction ids generalizing r with
  | nil => exact .pure ⟨.refl r, .slnil⟩
  | cons id ids ih =>
    unfold loadMethods
    split
    · rename_i hf
      refine .ask fun as => ?_
      split
      · exact (ih r).bind fun out h => .pure ⟨h.1, h.2.cons id⟩
      · rename_i has
        have hnow := (Reports.attach (mem_of_find? hf) has).resolve (List.mem_singleton_self id)
          .resolved
        exact (ih _).bind fun out h => .pure ⟨hnow.trans h.1 (by simp), h.2.cons_cons id⟩
    · exact (ih r).imp fun out h => ⟨h.1, h.2.cons id⟩

theorem loadLine_reports (type : TypeId) (source : String) (p : PendingLine) (r : Registry) :
    Yields (loadLine type source p r) fun out =>
      r.Reports (if out.1 then [p.id] else []) out.2 := by
  unfold loadLine
  split
  · exact .pure (.refl r)
  · split
    · exact .pure (.refl r)
    · rename_i hf
      split
      · exact .pure (.refl r)
      · refine .ask fun as => ?_
        split
        · exact .pure (.refl r)
        · rename_i has
          exact .pure (.attach (mem_of_find? hf) has)

theorem loadLines_reports (type : TypeId) (source : String) (ps : List PendingLine)
    (r : Registry) :
    Yields (loadLines type source ps r) fun out =>
      r.Reports out.1 out.2.2 ∧ out.1.Sublist (ps.map (·.id)) := by
  induction ps generalizing r with
  | nil => exact .pure ⟨.refl r, .slnil⟩
  | cons p ps ih =>
    unfold loadLines
    refine (loadLine_reports type source p r).bind fun out hout => ?_
    split
    · exact (ih _).imp fun out h => ⟨hout.trans h.1 (by simp), h.2.cons p.id⟩
    · rename_i r'
      have hnow : r.Reports [p.id] (if (r.find? p.id).any (·.resolution = .pending)
          then r'.update p.id ({ · with resolution := .resolved }) else r') := by
        split
        · exact hout.resolve (List.mem_singleton_self p.id) .resolved
        · exact hout
      exact (ih _).bind fun out h => .pure ⟨hnow.trans h.1 (by simp), h.2.cons_cons p.id⟩

theorem loadType_reports (r : Registry) (type : TypeId) (name : String) :
    Yields (r.loadType type name) fun out => r.Reports out.1 out.2 ∧
      out.1.Sublist ((r.pendingTypes.filter (·.1 = name)).map (·.2)) :=
  (loadMethods_reports type _ r).bind fun _ h => .pure ⟨h.1.trans (.of_eq rfl rfl) (by simp), h.2⟩

theorem loadSource_reports (r : Registry) (type : TypeId) (source : String) :
    Yields (r.loadSource type source) fun out => r.Reports out.1 out.2 ∧
      out.1.Sublist ((r.pendingFor source).map (·.id)) :=
  (loadLines_reports type source _ r).bind fun _ h => .pure ⟨h.1.trans (.of_eq rfl rfl) (by simp), h.2⟩

theorem onTypeLoaded_reports (r : Registry) (type : TypeId) :
    Yields (r.onTypeLoaded type) fun out => r.Reports out.1 out.2 := by
  unfold onTypeLoaded
  refine .ask fun name => ?_
  split
  · exact .pure (.refl r)
  · refine (loadType_reports r type _).bind fun methods hmethods => .ask fun source => ?_
    split
    · exact .pure hmethods.1
    · exact (loadSource_reports _ type _).bind fun lines hlines =>
        .pure (hmethods.1.trans hlines.1 fun _ => List.mem_append)

/-- A method and a line are never one breakpoint, so no id is reported twice. -/
theorem onTypeLoaded_nodup {r : Registry} {l : Link} (h : r.Sound l.target) (type : TypeId) :
    (r.onTypeLoaded type l).1.1.Nodup := by
  simp only [onTypeLoaded, OverLink.bind_run, Remote.typeName, Link.ask_result?]
  cases hname : l.answer .typeName (·.typeName type) with
  | error fault => exact .nil
  | ok name =>
    obtain ⟨e, he, rfl⟩ := Target.typeName_ok (Link.answer_ok hname)
    obtain ⟨methods, r₁, l₁, hrun, hload, -⟩ := loadType_run (l := l.counted) h he
    obtain ⟨-, hmethods⟩ := loadType_reports r type e.name l.counted
    rw [hrun] at hmethods
    have hs₁ : r₁.Sound l₁.target := hload.sound h
    have hnodup : methods.Nodup := hmethods.nodup (h.waitingIds_nodup e.name)
    simp only [Except.toOption, OverLink.bind_run, hrun]
    cases hsource : (sourceOf type l₁).1 with
    | none => exact hnodup
    | some source =>
      obtain ⟨-, hlines⟩ := loadSource_reports r₁ type source (sourceOf type l₁).2
      refine List.nodup_append.mpr ⟨hnodup, hlines.nodup (hs₁.pendingFor_nodup source), ?_⟩
      rintro id hm _ hl rfl
      obtain ⟨b, hb, hid, ⟨name, params, hsite⟩, -⟩ :=
        mem_waitingTypes.mp (h.mem_waitingIds.mp (hmethods.subset hm))
      obtain ⟨p, hp, rfl⟩ := List.mem_map.mp (hlines.subset hl)
      obtain ⟨c, hc, hcid, hline, -⟩ := mem_waitingLines.mp (hs₁.mem_pendingFor.mp hp).1
      have hs : (b.id, b.site) ∈ r₁.sites := hload.sites ▸ mem_sites.mpr ⟨b, hb, rfl, rfl⟩
      obtain ⟨d, hd, hdid, hdsite⟩ := mem_sites.mp hs
      rw [hs₁.unique hd hc (hdid.trans (hid.trans hcid.symm)), hsite, hline] at hdsite
      contradiction

/-! ### Rescans -/

theorem addNew_nodup {ids : List BreakpointId} (h : ids.Nodup) (more : List BreakpointId) :
    (addNew ids more).Nodup := by
  induction more generalizing ids with
  | nil => exact h
  | cons id more ih =>
    have hstep : (if id ∈ ids then ids else ids ++ [id]).Nodup := by
      split
      · exact h
      · rename_i hno
        refine List.nodup_append.mpr ⟨h, by simp, ?_⟩
        simpa using fun i hi => ne_of_mem_of_not_mem hi hno
    exact ih hstep

theorem rescanTypes_reports {r₀ : Registry} (types : List TypeId) {changed : List BreakpointId}
    {r : Registry} (h : r₀.Reports changed r) (hchanged : changed.Nodup) :
    Yields (rescanTypes types changed r) fun out => r₀.Reports out.1 out.2 ∧ out.1.Nodup := by
  induction types generalizing changed r with
  | nil => exact .pure ⟨h, hchanged⟩
  | cons type types ih =>
    exact (onTypeLoaded_reports r type).bind fun out hout =>
      ih (h.trans hout fun _ => mem_addNew) (addNew_nodup hchanged out.1)

theorem rescan_reports (r : Registry) :
    Yields r.rescan fun out => r.Reports out.1 out.2 ∧ out.1.Nodup := by
  unfold rescan
  refine .ask fun types => ?_
  split
  · exact .pure ⟨.refl r, .nil⟩
  · exact rescanTypes_reports _ (.refl r) .nil

end Registry

end Debugger
