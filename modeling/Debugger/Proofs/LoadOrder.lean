import Debugger.Proofs.Coverage
import Debugger.Proofs.Growth
import Debugger.Proofs.Outcome

/-!
Order of loads: where only one type is asked for, it does not matter whether the breakpoint was
registered first or the type was loaded first, and what else happened.
-/

namespace Debugger

/-- Whether a breakpoint can be registered under the settings. -/
def BreakpointSpec.Valid (settings : BreakpointSettings) (spec : BreakpointSpec) : Prop :=
  ∃ b, ({ settings } : Registry).accept spec = .ok b

/-- Breakpoints that are there already do not matter. -/
theorem BreakpointSpec.Valid.accept {r : Registry} {spec : BreakpointSpec}
    (h : spec.Valid r.settings) : ∃ b, r.accept spec = .ok b := by
  obtain ⟨b, hb⟩ := h
  simp only [Registry.accept, bind, Except.bind] at hb ⊢
  split at hb
  · contradiction
  · split at hb
    · contradiction
    · exact ⟨_, rfl⟩

namespace Registry

/-! ### Breakpoints that are left alone -/

/-- The registry has a breakpoint of the id at the site, enabled or not. -/
def Has (r : Registry) (id : BreakpointId) (site : Site) (enabled : Bool) : Prop :=
  ∃ b ∈ r.breakpoints, b.id = id ∧ b.site = site ∧ b.enabled = enabled

/-- The act does not remove or switch the breakpoint of the id. -/
def Act.Spares (id : BreakpointId) : Act → Prop
  | .remove i => i ≠ id
  | .setEnabled i _ => i ≠ id
  | .clear => False
  | _ => True

instance (id : BreakpointId) : (act : Act) → Decidable (act.Spares id)
  | .remove i | .setEnabled i _ => inferInstanceAs (Decidable (i ≠ id))
  | .clear => inferInstanceAs (Decidable False)
  | .register _ | .onTypeLoaded _ | .rescan | .recordHit _ | .decide .. | .change _ =>
    inferInstanceAs (Decidable True)

namespace Has

variable {r r' : Registry} {id : BreakpointId} {site : Site} {enabled : Bool}
  (h : r.Has id site enabled)

include h

theorem of_map {g : Breakpoint → Breakpoint} (hbs : r'.breakpoints = r.breakpoints.map g)
    (hg : ∀ b, b.id = id → (g b).id = b.id ∧ (g b).site = b.site ∧ (g b).enabled = b.enabled) :
    r'.Has id site enabled := by
  obtain ⟨b, hb, hid, hsite, henabled⟩ := h
  obtain ⟨hid', hsite', henabled'⟩ := hg b hid
  refine ⟨g b, ?_, hid'.trans hid, hsite'.trans hsite, henabled'.trans henabled⟩
  rw [hbs]
  exact List.mem_map.mpr ⟨b, hb, rfl⟩

theorem of_grows (hgrows : r.Grows r') : r'.Has id site enabled := by
  obtain ⟨g, hg, hbs⟩ := hgrows.breakpoints
  exact h.of_map hbs fun b _ => ⟨(hg b).id_eq, (hg b).site_eq, (hg b).enabled_eq⟩

theorem register (spec : BreakpointSpec) (l : Link) :
    (r.register spec l).1.2.Has id site enabled := by
  obtain ⟨b, hb, hsame⟩ := h
  obtain ⟨-, hbs | ⟨c, c', -, -, hbs⟩⟩ := register_grows r spec l
  · exact ⟨b, hbs ▸ hb, hsame⟩
  · exact ⟨b, hbs ▸ List.mem_append_left _ hb, hsame⟩

theorem remove {other : BreakpointId} (hne : other ≠ id) (l : Link) :
    (r.remove other l).1.2.Has id site enabled := by
  obtain ⟨b, hb, hid, hsame⟩ := h
  refine ⟨b, ?_, hid, hsame⟩
  rw [(remove_breakpoints r other l).2]
  refine List.mem_filter.mpr ⟨hb, ?_⟩
  simpa [hid] using hne.symm

theorem setEnabled {other : BreakpointId} (hne : other ≠ id) (on : Bool) (l : Link) :
    (r.setEnabled other on l).1.2.Has id site enabled := by
  rcases setEnabled_registry r other on l with hr | hr
  · rwa [hr]
  · rw [hr]
    refine h.of_map rfl fun b hid => ?_
    rw [if_neg (hid ▸ hne.symm)]
    exact ⟨rfl, rfl, rfl⟩

theorem recordHit {t : Target} (ha : r.Accounted t) (request : RequestId) :
    (r.recordHit request).2.Has id site enabled := by
  rw [ha.recordHit_eq]
  refine h.of_map rfl fun b _ => ?_
  split <;> exact ⟨rfl, rfl, rfl⟩

end Has

/-- An act that spares a breakpoint leaves it at its site, and enabled or not as it was. -/
theorem Has.step {s : Registry × Link} {id : BreakpointId} {site : Site} {enabled : Bool}
    (h : s.1.Has id site enabled) (hs : s.1.Sound s.2.target) {act : Act} (hact : act.Spares id) :
    (step s act).1.Has id site enabled := by
  obtain ⟨r, l⟩ := s
  cases act with
  | register spec => exact h.register spec l
  | onTypeLoaded type => exact h.of_grows (onTypeLoaded_grows type r l)
  | rescan => exact h.of_grows (rescan_grows r l)
  | remove other => exact h.remove hact l
  | setEnabled other on => exact h.setEnabled hact on l
  | recordHit request => exact h.recordHit hs.toAccounted request
  | decide settings request thread =>
    obtain ⟨decision, l', hrun, -⟩ := decide_run hs settings request thread
    change (Gate.decide settings r request thread l).1.2.Has id site enabled
    rw [hrun]
    exact h.recordHit hs.toAccounted request
  | clear => contradiction
  | change c => exact h

theorem Has.run {s : Registry × Link} {id : BreakpointId} {site : Site} {enabled : Bool}
    (h : s.1.Has id site enabled) (hs : s.1.Sound s.2.target) {acts : List Act}
    (hacts : ∀ act ∈ acts, act.Spares id) : (run acts s).1.Has id site enabled := by
  induction acts generalizing s with
  | nil => exact h
  | cons act acts ih =>
    have hstep := h.step hs (hacts act (by simp))
    exact ih hstep ((step_moves hs act).sound hs) fun a ha => hacts a (List.mem_cons_of_mem _ ha)

/-- A breakpoint that was taken up is at the site it was registered for. -/
theorem Sound.has_registered {r : Registry} {l : Link} (h : r.Sound l.target) (hl : l.Reliable)
    {spec : BreakpointSpec} (hvalid : spec.Valid r.settings) :
    (r.register spec l).1.2.Has r.nextId spec.site spec.enabled := by
  obtain ⟨b, hacc⟩ := hvalid.accept
  obtain ⟨taken, htaken⟩ := register_taken h hl hacc
  obtain ⟨result, r', l', hrun, hregisters⟩ := register_run h spec
  obtain ⟨-, hbs⟩ := register_grows r spec l
  rw [hrun] at htaken hbs ⊢
  obtain ⟨hm, hid⟩ := hregisters.known taken htaken
  have hnew : taken ∉ r.breakpoints := fun hold => Nat.lt_irrefl _ (hid ▸ h.issued taken hold)
  rcases hbs with hbs | ⟨c, c', hacc', hgrows, hbs⟩
  · exact absurd (hbs ▸ hm) hnew
  · obtain rfl : taken = c' := by
      rcases List.mem_append.mp (hbs ▸ hm) with hold | hlast
      · exact absurd hold hnew
      · exact List.mem_singleton.mp hlast
    obtain ⟨hsite, henabled, -⟩ := accept_spec hacc'
    exact ⟨taken, hm, hid, hgrows.site_eq.trans hsite, hgrows.enabled_eq.trans henabled⟩

/-! ### Courses -/

/-- A run that registers a breakpoint and leaves it alone from then on. The target answers all the
time, the counter of its requests does not wrap, and of its types one is asked for. -/
structure Course (settings : BreakpointSettings) (spec : BreakpointSpec) where
  before : List Act
  after : List Act
  type : TypeId
  entry : TypeEntry
  spared : ∀ act ∈ after, act.Spares (run before (start settings fun _ _ => none)).1.nextId
  connected : (run (before ++ .register spec :: after)
    (start settings fun _ _ => none)).2.target.connected = true
  unwrapped : (run (before ++ .register spec :: after)
    (start settings fun _ _ => none)).2.target.Unwrapped
  sole : spec.site.Sole settings.sourceMatch
    (run (before ++ .register spec :: after) (start settings fun _ _ => none)).2.target type entry

namespace Course

variable {settings : BreakpointSettings} {spec : BreakpointSpec} (c : Course settings spec)

/-- The state in which the breakpoint is registered. -/
def registration : Registry × Link :=
  run c.before (start settings fun _ _ => none)

def id : BreakpointId :=
  c.registration.1.nextId

def final : Registry × Link :=
  run c.after (step c.registration (.register spec))

/-- What has become of the breakpoint at the end. -/
def outcome? : Option Outcome :=
  c.final.1.outcome? c.final.2.target c.id

/-- The type was loaded when the breakpoint was registered. -/
def LoadedFirst : Prop :=
  Loaded c.registration c.type

/-- The type was loaded later, and then reported, or found in a rescan. -/
def RegisteredFirst : Prop :=
  ¬ Loaded c.registration c.type ∧ ∃ early look late, c.after = early ++ look :: late ∧
    Loaded (run early (step c.registration (.register spec))) c.type ∧
    (look = .onTypeLoaded c.type ∨ look = .rescan)

theorem run_eq : run (c.before ++ .register spec :: c.after) (start settings fun _ _ => none) =
    c.final := by
  rw [run_append, run_cons]
  rfl

theorem registration_sound : c.registration.1.Sound c.registration.2.target :=
  run_sound (start_sound settings fun _ _ => none) c.before

theorem registered_sound : (step c.registration (.register spec)).1.Sound
    (step c.registration (.register spec)).2.target :=
  (step_moves c.registration_sound _).sound c.registration_sound

theorem final_steps : Steps (start settings fun _ _ => none) c.final := by
  rw [← c.run_eq]
  exact run_steps (start_sound settings fun _ _ => none) _

theorem final_sound : c.final.1.Sound c.final.2.target :=
  run_sound c.registered_sound c.after

theorem final_settings : c.final.1.settings = settings :=
  (Steps.follows c.final_steps (start_sound settings fun _ _ => none).toAccounted).settings

theorem reliable : c.final.2.Reliable := by
  have hrefuses := (Steps.follows c.final_steps
    (start_sound settings fun _ _ => none).toAccounted).refuses
  exact ⟨c.run_eq ▸ c.connected, fun n call => by rw [hrefuses]; rfl⟩

/-- At no point two requests have the same number. -/
theorem numbersDiffer {acts : List Act} (h : acts <+: c.before ++ .register spec :: c.after) :
    (run acts (start settings fun _ _ => none)).2.target.NumbersDiffer :=
  run_numbersDiffer (start_sound settings fun _ _ => none) c.unwrapped h

/-- At every point after the registration the breakpoint is there. -/
theorem has (hvalid : spec.Valid settings) {early late : List Act}
    (hsplit : c.after = early ++ late) :
    (run early (step c.registration (.register spec))).1.Has c.id spec.site spec.enabled := by
  have hfollows := run_follows (start_sound settings fun _ _ => none) c.before
  have hlater := ((step_moves c.registration_sound (.register spec)).follows
    c.registration_sound).trans (run_follows c.registered_sound c.after)
  have hsettings : c.registration.1.settings = settings := hfollows.settings
  have htaken : (step c.registration (.register spec)).1.Has c.id spec.site spec.enabled :=
    c.registration_sound.has_registered (hlater.reliable c.reliable) (by rwa [hsettings])
  exact htaken.run c.registered_sound fun act hact =>
    c.spared act (hsplit ▸ List.mem_append_left _ hact)

/-- In either order the type has been looked at for the breakpoint. -/
theorem seen (hvalid : spec.Valid settings) (h : c.RegisteredFirst ∨ c.LoadedFirst) :
    Seen settings (c.before ++ .register spec :: c.after) c.id c.type := by
  rcases h with ⟨-, early, look, late, hsplit, hloaded, hlook⟩ | hloaded
  · obtain ⟨b, hb, hid, -⟩ := c.has hvalid hsplit
    have hrun : run (c.before ++ .register spec :: early) (start settings fun _ _ => none) =
        run early (step c.registration (.register spec)) := by
      rw [run_append, run_cons]
      rfl
    refine ⟨c.before ++ .register spec :: early, look, late, ?_, hrun ▸ hloaded, ?_⟩
    · rw [hsplit, List.append_assoc, List.cons_append]
    · rw [hrun]
      rcases hlook with rfl | rfl
      · exact .reported ⟨b, hb, hid⟩
      · exact .rescanned ⟨b, hb, hid⟩
  · obtain ⟨b, hb, hid, -⟩ := c.has hvalid (List.nil_append c.after).symm
    exact ⟨c.before, .register spec, c.after, rfl, hloaded, .registered rfl ⟨b, hb, hid⟩⟩

theorem outcome_eq (hvalid : spec.Valid settings) (h : c.RegisteredFirst ∨ c.LoadedFirst) :
    c.outcome? = some (spec.site.outcome c.entry.outline spec.enabled) := by
  obtain ⟨b, hb, hid, hsite, henabled⟩ := c.has hvalid (List.append_nil c.after).symm
  have hstart := start_sound settings fun _ _ => none
  have hcovered := (c.seen hvalid h).covered (c.run_eq ▸ c.reliable)
  have hagrees := Steps.agrees c.final_steps hstart.toAccounted c.reliable
    fun q hq => absurd hq List.not_mem_nil
  have hexact := Steps.exact c.final_steps hstart.toAccounted c.reliable
    fun b hb => absurd hb List.not_mem_nil
  rw [c.run_eq, ← hid] at hcovered
  have hsole : b.site.Sole c.final.1.settings.sourceMatch c.final.2.target c.type c.entry := by
    rw [hsite, c.final_settings, ← c.run_eq]
    exact c.sole
  have hout := c.final_sound.outcome_eq hagrees hexact hb hsole hcovered
  rwa [hid, hsite, henabled] at hout

end Course

/-- Registration and load commute. Of a breakpoint that asks for one type the same becomes whether
it was registered or its type loaded first, whatever else was done in between; it lies in all the
places that it asks for in the type, or waits if there are none. No number of its requests ever
stood for another one. -/
theorem load_order_irrelevant {settings : BreakpointSettings} {spec : BreakpointSpec}
    (hvalid : spec.Valid settings) (c c' : Course settings spec)
    (h : c.RegisteredFirst ∨ c.LoadedFirst) (h' : c'.RegisteredFirst ∨ c'.LoadedFirst)
    (hsame : c.entry.outline = c'.entry.outline) :
    c.outcome? = c'.outcome? ∧
      c.outcome? = some (spec.site.outcome c.entry.outline spec.enabled) ∧
      ∀ d ∈ [c, c'], ∀ acts, acts <+: d.before ++ .register spec :: d.after →
        (run acts (start settings fun _ _ => none)).2.target.NumbersDiffer := by
  have hc := c.outcome_eq hvalid h
  have hc' := c'.outcome_eq hvalid h'
  exact ⟨by rw [hc, hc', hsame], hc, fun d _ acts => d.numbersDiffer⟩

/-- Two overloads get their requests in either order, while the type is reported twice and another
breakpoint comes and goes, or is switched. -/
theorem load_order_overloads : ∃ c c' : Course {} { site := .method "a.B" "m" none },
    c.RegisteredFirst ∧ c'.LoadedFirst ∧ c.outcome? = c'.outcome? ∧
      c.outcome?.map (·.requests.length) = some 2 := by
  let spec : BreakpointSpec := { site := .method "a.B" "m" none }
  let other : Act := .register { site := .line "B.kt" 3 }
  let type : TypeSpec := {
    name := "a.B", sourceFile := some "B.kt", lines := [3]
    methods := [{ name := "m" }, { name := "n" }, { name := "m", params := ["int"] }] }
  let outline : Outline := ⟨"a.B", some "B.kt", [3], [("m", []), ("n", []), ("m", ["int"])]⟩
  have hcourse (before after : List Act)
      (hspared : ∀ act ∈ after, act.Spares (run before (start {} fun _ _ => none)).1.nextId)
      (hconnected : (run (before ++ .register spec :: after)
        (start {} fun _ _ => none)).2.target.connected = true)
      (hroom : (run (before ++ .register spec :: after)
        (start {} fun _ _ => none)).2.target.Unwrapped)
      (hfound : ((run (before ++ .register spec :: after)
        (start {} fun _ _ => none)).2.target.type? 5).map (·.outline) = some outline)
      (honly : ∀ e ∈ (run (before ++ .register spec :: after)
        (start {} fun _ _ => none)).2.target.types, spec.site.Concerns .tolerant e → e.id = 5) :
      ∃ c : Course {} spec, c.before = before ∧ c.after = after ∧ c.type = 5 ∧
        c.entry.outline = outline := by
    obtain ⟨e, he, houtline⟩ := Option.map_eq_some_iff.mp hfound
    refine ⟨⟨before, after, 5, e, hspared, hconnected, hroom, he,
      congrArg Outline.name houtline, ?_⟩, rfl, rfl, rfl, houtline⟩
    intro type' e' he' hconcerns
    obtain rfl : e'.id = type' := by simpa using List.find?_some he'
    exact honly e' (List.mem_of_find?_eq_some he') hconcerns
  obtain ⟨c, hbefore, hafter, htype, houtline⟩ := hcourse [.change (.define type false), other]
    [.rescan, .change (.load 5), .onTypeLoaded 5, .onTypeLoaded 5, .remove 1]
    (by decide +kernel) (by decide +kernel) (by decide +kernel) (by decide +kernel)
    (by decide +kernel)
  obtain ⟨c', hbefore', -, htype', houtline'⟩ := hcourse [.change (.define type true)]
    [other, .setEnabled 2 false, .rescan]
    (by decide +kernel) (by decide +kernel) (by decide +kernel) (by decide +kernel)
    (by decide +kernel)
  have hregistered : c.RegisteredFirst := by
    rw [Course.RegisteredFirst, Course.registration, hbefore, hafter, htype]
    exact ⟨by decide +kernel, [.rescan, .change (.load 5)], .onTypeLoaded 5, _, rfl,
      by decide +kernel, .inl rfl⟩
  have hloaded : c'.LoadedFirst := by
    rw [Course.LoadedFirst, Course.registration, hbefore', htype']
    decide +kernel
  obtain ⟨hsame, hout, -⟩ := load_order_irrelevant ⟨_, rfl⟩ c c' (.inl hregistered) (.inr hloaded)
    (houtline.trans houtline'.symm)
  refine ⟨c, c', hregistered, hloaded, hsame, ?_⟩
  rw [hout, houtline]
  decide +kernel

end Registry

end Debugger
