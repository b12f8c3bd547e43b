import Debugger.Proofs.Consistency
import Debugger.Proofs.Exactness
import Debugger.Proofs.Loading

/-!
What becomes of a breakpoint for which there is one type: it follows from what is asked for and from
the type alone, not from numbers or from the order of what happened.
-/

namespace Debugger

/-! ### Without numbers -/

/-- What a breakpoint can tell of a type. -/
structure Outline where
  name : String
  sourceFile : Option String
  lines : List Nat
  /-- Names and parameters. -/
  methods : List (String × List String)
deriving DecidableEq, Repr

def TypeEntry.outline (e : TypeEntry) : Outline :=
  ⟨e.name, e.sourceFile, e.lines, e.methods.map fun m => (m.1.name, m.1.params)⟩

/-- A request and where it lies. -/
structure Placement where
  type : Outline
  /-- The position of the method among those of the type. -/
  method : Option Nat
  line : Nat
  index : Nat
  enabled : Bool
deriving DecidableEq, Repr

def TypeEntry.placement (e : TypeEntry) (location : Location) (enabled : Bool) : Placement :=
  ⟨e.outline, e.methods.findIdx? (·.1.id = location.method), location.line, location.index, enabled⟩

def Target.placement? (t : Target) (id : RequestId) : Option Placement := do
  let q ← t.request? id
  let e ← t.type? q.location.type
  return e.placement q.location q.enabled

/-- How far a breakpoint is attached, its requests in order, and where it waits. -/
structure Outcome where
  resolution : Resolution
  requests : List (Option Placement)
  waitingLines : List (String × Nat)
  waitingTypes : List String
deriving DecidableEq, Repr

/-- What has become of the breakpoint of the id. -/
def Registry.outcome? (r : Registry) (t : Target) (id : BreakpointId) : Option Outcome := do
  let b ← r.find? id
  return {
    resolution := b.resolution
    requests := b.requests.map t.placement?
    waitingLines := (r.pendingLines.filter (·.id = id)).map fun p => (p.file, p.line)
    waitingTypes := (r.pendingTypes.filter (·.2 = id)).map (·.1) }

/-- An element whose key is its own is found by the key where it stands. -/
theorem findIdx?_key {α : Type} {l : List α} {key : α → Nat} (h : (l.map key).Nodup)
    (p : α → Bool) : (l.filter p).map (fun a => l.findIdx? (key · = key a)) =
      (l.zipIdx.filter (p ·.1)).map (some ·.2) := by
  have hfst : l.filter p = (l.zipIdx.filter (p ·.1)).map (·.1) := by
    conv_lhs => rw [← List.zipIdx_map_fst 0 l, List.filter_map]
    rfl
  rw [hfst, List.map_map]
  refine List.map_congr_left fun ⟨a, i⟩ hm => ?_
  have hat : l[i]? = some a := List.mem_zipIdx_iff_getElem?.mp (List.mem_filter.mp hm).1
  obtain ⟨hi, rfl⟩ := List.getElem?_eq_some_iff.mp hat
  refine List.findIdx?_eq_some_iff_getElem.mpr ⟨hi, by simp, fun j hj hkey => ?_⟩
  have hsame : (l.map key)[j]? = (l.map key)[i]? := by
    have hjl : j < l.length := Nat.lt_trans hj hi
    simpa [hi, hjl] using hkey
  have hil : i < (l.map key).length := by simpa using hi
  exact Nat.ne_of_lt hj ((List.getElem?_inj (Nat.lt_trans hj hil) h).mp hsame)

namespace Site

/-- The requests that a site gets in a type. -/
def placements (o : Outline) (enabled : Bool) : Site → List Placement
  | line _ n =>
    if n ∈ o.lines then [⟨o, if o.methods.isEmpty then none else some 0, n, n, enabled⟩] else []
  | method _ name params =>
    (o.methods.zipIdx.filter fun (m, _) => m.1 = name && params.all (· = m.2)).map
      fun (_, i) => ⟨o, some i, o.lines.headD 0, 0, enabled⟩

/-- What becomes of a breakpoint at a site that asks for this type and no other. -/
def outcome (o : Outline) (enabled : Bool) (site : Site) : Outcome :=
  let requests := site.placements o enabled
  { resolution := if requests.isEmpty then .pending else .resolved
    requests := requests.map some
    waitingLines := match site with
      | line file n => if requests.isEmpty then [(file, n)] else []
      | method .. => []
    waitingTypes := match site with
      | line .. => []
      | method type .. => if requests.isEmpty then [type] else [] }

/-- The places of a site are the requests that it gets. -/
theorem map_places {e : TypeEntry} (h : (e.methods.map (·.1.id)).Nodup) (enabled : Bool)
    (site : Site) : (site.places e).map (e.placement · enabled) =
      site.placements e.outline enabled := by
  cases site with
  | line file n =>
    have hhead : e.methods.findIdx? (·.1.id = (e.methods.head?.map (·.1.id)).getD 0) =
        if e.outline.methods.isEmpty then none else some 0 := by
      rw [TypeEntry.outline]
      cases e.methods <;> simp [List.findIdx?_cons]
    rw [places, placements, show e.outline.lines = e.lines from rfl]
    split
    · rw [List.map_singleton, TypeEntry.placement, hhead]
    · rfl
  | method owner name params =>
    let asks (m : String × List String) : Bool := m.1 = name && params.all (· = m.2)
    let place (i : Option Nat) : Placement := ⟨e.outline, i, e.lines.headD 0, 0, enabled⟩
    calc ((method owner name params).places e).map (e.placement · enabled)
      _ = ((e.methods.filter fun m => asks (m.1.name, m.1.params)).map
            fun m => e.methods.findIdx? (·.1.id = m.1.id)).map place := by
          simp only [places, List.filter_map, List.map_map]
          rfl
      _ = ((e.methods.zipIdx.filter fun m => asks (m.1.1.name, m.1.1.params)).map
            (some ·.2)).map place := by
          rw [findIdx?_key h fun m => asks (m.1.name, m.1.params)]
      _ = (method owner name params).placements e.outline enabled := by
          simp only [placements, TypeEntry.outline, List.zipIdx_map, List.filter_map, List.map_map]
          rfl

end Site

/-! ### With one type -/

/-- The type is the only one that a site asks for. -/
structure Site.Sole (mode : SourceMatch) (t : Target) (site : Site) (type : TypeId)
    (e : TypeEntry) : Prop where
  found : t.type? type = some e
  concerned : site.Concerns mode e
  only : ∀ type' e', t.type? type' = some e' → site.Concerns mode e' → type' = type

section Sole

variable {mode : SourceMatch} {t : Target} {b : Breakpoint} {type : TypeId} {e : TypeEntry}

theorem Site.Sole.not_shared {site : Site} (h : site.Sole mode t type e) :
    ¬ site.Shared mode t := by
  rintro ⟨i, j, d, d', hne, hd, hd', hconcerns, hconcerns'⟩
  exact hne ((h.only i d hd hconcerns).trans (h.only j d' hd' hconcerns').symm)

/-- A breakpoint that asks for one type and has seen it lies in all its places there, and is
resolved if there are any. -/
theorem Breakpoint.Sound.settled (h : b.Sound t) (ht : t.Sound) (hexact : b.Exact mode t)
    (hsole : b.site.Sole mode t type e)
    (hcovered : b.site.Offers e → b.resolution = .resolved ∨ type ∈ b.attached) :
    t.locationsOf b.requests = b.site.places e ∧
      b.resolution = if (b.site.places e).isEmpty then .pending else .resolved := by
  have honly : ∀ i ∈ b.attached, i = type := by
    intro i hi
    obtain ⟨d, hd, hconcerns, -⟩ := hexact.places i hi
    exact hsole.only i d hd hconcerns
  have hlocations : t.locationsOf b.requests = b.site.places e := by
    by_cases hm : type ∈ b.attached
    · obtain ⟨d, hd, -, hplaces⟩ := hexact.places type hm
      obtain rfl : e = d := Option.some.inj (hsole.found.symm.trans hd)
      rw [← hplaces]
      refine (List.filter_eq_self.mpr fun location hl => ?_).symm
      simpa using honly _ (h.mem_attached ht hl)
    · have hnone : b.attached = [] :=
        List.eq_nil_iff_forall_not_mem.mpr fun i hi => hm (honly i hi ▸ hi)
      have hreq := h.attached_eq_nil.mp hnone
      rw [hreq]
      refine (Site.places_eq_nil.mpr fun hoffers => ?_).symm
      rcases hcovered hoffers with hres | hin
      · rw [h.pending.mpr hreq] at hres
        contradiction
      · exact hm hin
  refine ⟨hlocations, ?_⟩
  have hempty : b.requests = [] ↔ b.site.places e = [] := by
    obtain ⟨qs, hqs⟩ := h.backed
    rw [← hlocations, hqs.requests, ht.locationsOf_eq hqs.there, List.map_eq_nil_iff,
      List.map_eq_nil_iff]
  split
  · rename_i hp
    exact h.pending.mpr (hempty.mpr (List.isEmpty_iff.mp hp))
  · rename_i hp
    cases hres : b.resolution with
    | pending => exact absurd (hempty.mp (h.pending.mp hres)) (by simpa using hp)
    | partly => exact absurd (hexact.shared hres) hsole.not_shared
    | resolved => rfl

end Sole

namespace Registry

/-- What becomes of a breakpoint that asks for one type and has seen it follows from both alone. -/
theorem Sound.outcome_eq {r : Registry} {l : Link} (h : r.Sound l.target)
    (hagrees : r.Agrees l.target) (hexact : r.Exact l.target) {b : Breakpoint}
    (hb : b ∈ r.breakpoints) {type : TypeId} {e : TypeEntry}
    (hsole : b.site.Sole r.settings.sourceMatch l.target type e)
    (hcovered : Covered (r, l) b.id type) :
    r.outcome? l.target b.id = some (b.site.outcome e.outline b.enabled) := by
  have hs := h.each b hb
  obtain ⟨hlocations, hres⟩ := hs.settled h.target (hexact b hb) hsole
    (hcovered b hb rfl e hsole.found hsole.concerned)
  have hmap := Site.map_places (h.target.methods_nodup (h.target.type?_eq_some.mp hsole.found).1)
    b.enabled b.site
  have hempty : (b.site.places e).isEmpty = (b.site.placements e.outline b.enabled).isEmpty := by
    rw [← hmap, List.isEmpty_map]
  have hrequests : b.requests.map l.target.placement? =
      (b.site.placements e.outline b.enabled).map some := by
    obtain ⟨qs, hqs⟩ := hs.backed
    rw [hqs.requests, h.target.locationsOf_eq hqs.there] at hlocations
    rw [← hmap, ← hlocations, hqs.requests, List.map_map, List.map_map, List.map_map]
    refine List.map_congr_left fun q hq => ?_
    have hwants := hagrees.wants h.toAccounted hb (hqs.there q hq)
      (hqs.requests ▸ List.mem_map.mpr ⟨q, hq, rfl⟩)
    obtain ⟨d, hd, hconcerns, -⟩ := hwants.placed
    obtain rfl : e = d := Option.some.inj
      (hsole.found.symm.trans (hsole.only _ d hd hconcerns ▸ hd))
    simp only [Function.comp_apply, Target.placement?, h.target.request?_eq (hqs.there q hq),
      Option.bind_eq_bind, Option.bind_some, hd, hwants.enabled]
    rfl
  rw [outcome?, h.find?_eq_some.mpr ⟨hb, rfl⟩]
  simp only [Option.bind_eq_bind, Option.bind_some, h.lines_of hb, h.types_of hb, hrequests, hres,
    hempty, Site.outcome, Breakpoint.waitingLines, Breakpoint.waitingTypes]
  cases b.site with
  | line file n => split <;> simp_all
  | method owner name params => split <;> simp_all

end Registry

end Debugger
