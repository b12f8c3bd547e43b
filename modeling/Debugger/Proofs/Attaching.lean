import Debugger.Breakpoint.Registry
import Debugger.Proofs.Requests

/-!
Attaching: the requests that a site gets in a type, and when it gets one.
-/

namespace Debugger

namespace Site

def isLine : Site → Bool
  | line .. => true
  | method .. => false

/-- Whether the site asks for the type. -/
def Concerns (mode : SourceMatch) (e : TypeEntry) : Site → Prop
  | line file _ =>
    ∃ source, e.sourceFile = some source ∧ SourcePath.sourceMatches mode file source = true
  | method type _ _ => e.name = type

instance (mode : SourceMatch) (e : TypeEntry) : (site : Site) → Decidable (site.Concerns mode e)
  | line file _ =>
    decidable_of_iff (e.sourceFile.any (SourcePath.sourceMatches mode file)) (Option.any_eq_true ..)
  | method type _ _ => inferInstanceAs (Decidable (e.name = type))

/-- Whether the type has code on the line, or declares a method of the name and the parameters. -/
def Offers (e : TypeEntry) : Site → Prop
  | line _ n => n ∈ e.lines
  | method _ name params => ∃ m ∈ e.methods, m.1.name = name ∧ ∀ ps ∈ params, m.1.params = ps

/-- Whether the location is such code in the type. -/
def Holds (e : TypeEntry) (location : Location) : Site → Prop
  | line _ n => location.line = n ∧ n ∈ e.lines
  | method _ name params => ∃ m ∈ e.methods,
    m.1.id = location.method ∧ m.1.name = name ∧ ∀ ps ∈ params, m.1.params = ps

/-- The places in the type that a site asks for, in the order in which it gets requests there. -/
def places (e : TypeEntry) : Site → List Location
  | line _ n => if n ∈ e.lines then [⟨e.id, (e.methods.head?.map (·.1.id)).getD 0, n, n⟩] else []
  | method _ name params =>
    ((e.methods.map (·.1)).filter fun m => m.name = name && params.all (· = m.params)).map
      fun m => ⟨e.id, m.id, e.lines.headD 0, 0⟩

/-- Whether the site asks for more than one type of the target. -/
def Shared (mode : SourceMatch) (t : Target) (site : Site) : Prop :=
  ∃ type type' e e', type ≠ type' ∧ t.type? type = some e ∧ t.type? type' = some e' ∧
    site.Concerns mode e ∧ site.Concerns mode e'

variable {e e' : TypeEntry} {site : Site}

theorem places_becomes (h : e.Becomes e') : site.places e' = site.places e := by
  rw [h.same]
  cases site <;> rfl

theorem places_eq_nil : site.places e = [] ↔ ¬ site.Offers e := by
  cases site with
  | line file n => simp [places, Offers]
  | method owner name params =>
    rw [places, List.map_eq_nil_iff, List.filter_eq_nil_iff]
    constructor
    · rintro hno ⟨m, hm, hname, hps⟩
      refine hno m.1 (List.mem_map_of_mem hm) ?_
      cases params with
      | none => simpa using hname
      | some ps => simpa [hname] using (hps ps rfl).symm
    · intro hno m hm hmatch
      obtain ⟨d, hd, rfl⟩ := List.mem_map.mp hm
      rw [Bool.and_eq_true, decide_eq_true_eq] at hmatch
      refine hno ⟨d, hd, hmatch.1, fun ps hps => ?_⟩
      rw [Option.mem_def.mp hps] at hmatch
      simpa using Eq.symm (by simpa using hmatch.2)

theorem concerns_becomes (h : e.Becomes e') {mode : SourceMatch} :
    site.Concerns mode e' ↔ site.Concerns mode e := by
  rw [h.same]
  cases site <;> exact Iff.rfl

theorem offers_becomes (h : e.Becomes e') : site.Offers e' ↔ site.Offers e := by
  rw [h.same]
  cases site <;> exact Iff.rfl

theorem holds_becomes (h : e.Becomes e') {location : Location} :
    site.Holds e' location ↔ site.Holds e location := by
  rw [h.same]
  cases site <;> exact Iff.rfl

end Site

/-- The methods of the name that the type declares itself, in order. -/
def TypeEntry.methodsNamed (e : TypeEntry) (name : String) : List Method :=
  (e.methods.map (·.1)).filter (·.name = name)

namespace Target

variable {t : Target}

theorem checkType_ok {id : TypeId} {e : TypeEntry} (h : t.checkType id = .ok e) :
    t.type? id = some e := by
  simp only [checkType, bind, Except.bind] at h
  split at h
  · contradiction
  · split at h
    · rename_i he
      cases h
      exact he
    · contradiction

/-- What comes after the check is about the type of the id. -/
theorem ok_of_checkType {α : Type} {id : TypeId} {f : TypeEntry → Except Fault α} {a : α}
    (h : (t.checkType id >>= f) = .ok a) : ∃ e, t.type? id = some e ∧ f e = .ok a := by
  cases he : t.checkType id with
  | error fault =>
    rw [he] at h
    contradiction
  | ok e =>
    rw [he] at h
    exact ⟨e, checkType_ok he, h⟩

theorem checkType_of_type {id : TypeId} {e : TypeEntry} (hc : t.connected = true)
    (he : t.type? id = some e) : t.checkType id = .ok e := by
  simp only [checkType, checkConnected, hc, he]
  rfl

/-- Adds a method that does not have the parameters of one found before. -/
def addFresh (found : List Method) (m : Method) : List Method :=
  if found.any (·.params = m.params) then found else found ++ [m]

theorem mem_methodsNamed {e : TypeEntry} {name : String} {m : Method} :
    m ∈ e.methodsNamed name ↔ m ∈ e.methods.map (·.1) ∧ m.name = name := by
  simp [TypeEntry.methodsNamed]

theorem addInherited_eq (name : String) (found : List Method) (e : TypeEntry) :
    addInherited name found e = (e.methodsNamed name).foldl addFresh found := by
  rw [addInherited, TypeEntry.methodsNamed, List.foldl_filter, List.foldl_map]
  congr
  funext found d
  by_cases hname : d.1.name = name <;> cases hany : found.any (·.params = d.1.params) <;>
    simp [addFresh, hname, hany]

theorem inherited_eq (name : String) (found : List Method) (up : List TypeEntry) :
    up.foldl (addInherited name) found =
      (up.flatMap (·.methodsNamed name)).foldl addFresh found := by
  rw [List.foldl_flatMap]
  congr
  funext found e
  exact addInherited_eq name found e

/-- What is added comes last, in order. Between them, what was found and what is added have the
parameters of all methods; none that is added has those of another one. -/
theorem foldl_addFresh (ms found : List Method) :
    ∃ extra, ms.foldl addFresh found = found ++ extra ∧ extra.Sublist ms ∧
      extra.Pairwise (·.params ≠ ·.params) ∧
      (∀ f ∈ found, ∀ m ∈ extra, f.params ≠ m.params) ∧
      ∀ m ∈ ms, ∃ f ∈ found ++ extra, f.params = m.params := by
  induction ms generalizing found with
  | nil => exact ⟨[], (List.append_nil _).symm, .slnil, .nil, by simp, by simp⟩
  | cons d ms ih =>
    rw [List.foldl_cons, addFresh]
    split
    · rename_i hknown
      obtain ⟨extra, heq, hsub, hapart, hnew, hall⟩ := ih found
      refine ⟨extra, heq, hsub.cons d, hapart, hnew, fun m hm => ?_⟩
      rcases List.mem_cons.mp hm with rfl | hm
      · obtain ⟨f, hf, hsame⟩ := List.any_eq_true.mp hknown
        exact ⟨f, List.mem_append_left _ hf, by simpa using hsame⟩
      · exact hall m hm
    · rename_i hfresh
      have hfresh : ∀ f ∈ found, f.params ≠ d.params := by simpa using hfresh
      obtain ⟨extra, heq, hsub, hapart, hnew, hall⟩ := ih (found ++ [d])
      have hd : ∀ m ∈ extra, d.params ≠ m.params := hnew d (by simp)
      refine ⟨d :: extra, by rw [heq, List.append_assoc, List.singleton_append],
        hsub.cons_cons d, List.pairwise_cons.mpr ⟨hd, hapart⟩, fun f hf m hm => ?_, fun m hm => ?_⟩
      · rcases List.mem_cons.mp hm with rfl | hm
        · exact hfresh f hf
        · exact hnew f (List.mem_append_left _ hf) m hm
      · rw [← List.singleton_append, ← List.append_assoc]
        rcases List.mem_cons.mp hm with rfl | hm
        · exact ⟨m, by simp, rfl⟩
        · exact hall m hm

/-- The methods found for a name are first the type's own, then such as other types declare with
other parameters. -/
theorem methodsByName_eq {id : TypeId} {name : String} {ms : List Method}
    (h : t.methodsByName id name = .ok ms) : ∃ e extra, t.type? id = some e ∧
      ms = (e.methods.map (·.1)).filter (·.name = name) ++ extra ∧ ∀ m ∈ extra,
        m.name = name ∧ (∃ d ∈ t.types, m ∈ d.methods.map (·.1)) ∧
          m ∉ e.methods.map (·.1) := by
  obtain ⟨e, he, h⟩ := ok_of_checkType h
  obtain ⟨extra, heq, hsub, -, hnew, -⟩ := foldl_addFresh
    (((t.lineage id).tail.filterMap t.type?).flatMap (·.methodsNamed name)) (e.methodsNamed name)
  rw [← inherited_eq] at heq
  refine ⟨e, extra, he, (Except.ok.inj h).symm.trans heq, fun m hm => ?_⟩
  obtain ⟨d, hd, hmd⟩ := List.mem_flatMap.mp (hsub.subset hm)
  obtain ⟨i, -, hi⟩ := List.mem_filterMap.mp hd
  obtain ⟨hmd, hname⟩ := mem_methodsNamed.mp hmd
  refine ⟨hname, ⟨d, List.mem_of_find?_eq_some hi, hmd⟩, fun hown => ?_⟩
  exact hnew m (mem_methodsNamed.mpr ⟨hown, hname⟩) m hm rfl

theorem mem_methodsByName {id : TypeId} {name : String} {ms : List Method}
    (h : t.methodsByName id name = .ok ms) {m : Method} (hm : m ∈ ms) :
    m.name = name ∧ ∃ d ∈ t.types, m ∈ d.methods.map (·.1) := by
  obtain ⟨e, extra, he, rfl, hextra⟩ := methodsByName_eq h
  rcases List.mem_append.mp hm with hm | hm
  · obtain ⟨hown, hname⟩ := List.mem_filter.mp hm
    exact ⟨by simpa using hname, e, List.mem_of_find?_eq_some he, hown⟩
  · exact ⟨(hextra m hm).1, (hextra m hm).2.1⟩

theorem methodsByName_of_type {id : TypeId} {e : TypeEntry} (name : String)
    (hc : t.connected = true) (he : t.type? id = some e) :
    ∃ ms, t.methodsByName id name = .ok ms := by
  simp only [methodsByName, checkType_of_type hc he]
  exact ⟨_, rfl⟩

theorem locationsForLine_ok {id : TypeId} {line : Nat} {locations : List Location}
    (h : t.locationsForLine id line = .ok locations) :
    ∃ e, t.type? id = some e ∧ (line ∈ e.lines → locations ≠ []) ∧
      ∀ location ∈ locations, location.type = id ∧ location.line = line ∧ line ∈ e.lines := by
  obtain ⟨e, he, h⟩ := ok_of_checkType h
  refine ⟨e, he, ?_⟩
  split at h
  · rename_i hl
    cases h
    refine ⟨fun _ => by simp, fun location hm => ?_⟩
    rw [List.mem_singleton.mp hm]
    exact ⟨rfl, rfl, hl⟩
  · rename_i hl
    cases h
    exact ⟨fun hm => absurd hm hl, by simp⟩

theorem locationsForLine_eq {id : TypeId} {e : TypeEntry} (file : String) (line : Nat)
    (hc : t.connected = true) (he : t.type? id = some e) :
    t.locationsForLine id line = .ok ((Site.line file line).places e) := by
  obtain rfl := (mem_of_type? he).2
  simp only [locationsForLine, checkType_of_type hc he, bind, Except.bind, Site.places]
  split <;> rfl

theorem methodEntry_ok {id : TypeId} {method : MethodId} {location : Option Location}
    (h : t.methodEntry id method = .ok location) :
    ∃ e place, t.type? id = some e ∧ location = some place ∧ place.type = id ∧
      place.method = method ∧ ∃ m ∈ e.methods, m.1.id = method := by
  obtain ⟨e, he, h⟩ := ok_of_checkType h
  split at h
  · rename_i hm
    cases h
    obtain ⟨m, hm, hid⟩ := List.any_eq_true.mp hm
    exact ⟨e, _, he, rfl, rfl, rfl, m, hm, by simpa using hid⟩
  · contradiction

/-- Only methods that the type declares itself have an entry. -/
theorem methodEntry_eq {id : TypeId} {e : TypeEntry} (method : MethodId) (hc : t.connected = true)
    (he : t.type? id = some e) : t.methodEntry id method =
      if e.methods.any (·.1.id = method) then .ok (some ⟨id, method, e.lines.headD 0, 0⟩)
      else .error (.invalidMethod method) := by
  simp only [methodEntry, checkType_of_type hc he, bind, Except.bind]
  split <;> rfl

theorem typeName_ok {id : TypeId} {name : String} (h : t.typeName id = .ok name) :
    ∃ e, t.type? id = some e ∧ e.name = name := by
  rw [typeName, ← bind_pure_comp] at h
  obtain ⟨e, he, h⟩ := ok_of_checkType h
  exact ⟨e, he, Except.ok.inj h⟩

theorem typeName_of_type {id : TypeId} {e : TypeEntry} (hc : t.connected = true)
    (he : t.type? id = some e) : t.typeName id = .ok e.name := by
  rw [typeName, checkType_of_type hc he]
  rfl

theorem superclass_ok {id : TypeId} {parent : Option TypeId} (h : t.superclass id = .ok parent) :
    ∃ e, t.type? id = some e ∧ e.superclass.bind t.typeNamed? = parent := by
  obtain ⟨e, he, h⟩ := ok_of_checkType h
  exact ⟨e, he, Except.ok.inj h⟩

theorem interfaces_ok {id : TypeId} {interfaces : List TypeId}
    (h : t.interfaces id = .ok interfaces) :
    ∃ e, t.type? id = some e ∧ e.interfaces.filterMap t.typeNamed? = interfaces := by
  obtain ⟨e, he, h⟩ := ok_of_checkType h
  exact ⟨e, he, Except.ok.inj h⟩

theorem sourceFile_ok {id : TypeId} {source : Option String} (h : t.sourceFile id = .ok source) :
    ∃ e, t.type? id = some e ∧ e.sourceFile = source := by
  rw [sourceFile, ← bind_pure_comp] at h
  obtain ⟨e, he, h⟩ := ok_of_checkType h
  exact ⟨e, he, Except.ok.inj h⟩

theorem sourceFile_of_type {id : TypeId} {e : TypeEntry} (hc : t.connected = true)
    (he : t.type? id = some e) : t.sourceFile id = .ok e.sourceFile := by
  rw [sourceFile, checkType_of_type hc he]
  rfl

theorem listLoaded_ok {name : Option String} {types : List TypeId}
    (h : t.listLoaded name = .ok types) :
    types = (t.types.filter fun e => e.loaded && name.all (e.name = ·)).map (·.id) := by
  simp only [listLoaded, bind, Except.bind] at h
  split at h
  · contradiction
  · cases h
    rfl

theorem listLoaded_of_connected (hc : t.connected = true) (name : Option String) :
    t.listLoaded name =
      .ok ((t.types.filter fun e => e.loaded && name.all (e.name = ·)).map (·.id)) := by
  rw [listLoaded, checkConnected, if_pos hc]
  rfl

end Target

/-! ### Attempts -/

def Request.attachment (q : Request) : Attachment :=
  ⟨q.id, q.location.type⟩

@[simp] theorem Request.attachments_requests (qs : List Request) :
    (qs.map Request.attachment).map (·.request) = qs.map (·.id) :=
  List.map_map

@[simp] theorem Request.attachments_types (qs : List Request) :
    (qs.map Request.attachment).map (·.type) = qs.map (·.location.type) :=
  List.map_map

/-- An attempt to attach added these requests and returned them. Where no call fails, they are
switched as asked. -/
structure Attempt (enabled : Bool) (l : Link) (out : List Attachment × Link)
    (news : List Request) : Prop where
  adds : l.Adds out.2 news
  result : out.1 = news.map Request.attachment
  switched : l.Reliable → ∀ q ∈ news, q.enabled = enabled

namespace Attempt

variable {enabled : Bool} {l l' : Link} {out more : List Attachment × Link}
  {news news' : List Request}

theorem nothing (ht : l'.target = l.target) (hr : l'.refuses = l.refuses) :
    Attempt enabled l ([], l') [] :=
  ⟨.nothing ht hr, rfl, by simp⟩

theorem append (h : Attempt enabled l out news) (h' : Attempt enabled out.2 more news') :
    Attempt enabled l (out.1 ++ more.1, more.2) (news ++ news') := by
  refine ⟨h.adds.trans h'.adds, by rw [h.result, h'.result, List.map_append], ?_⟩
  intro hl q hq
  rcases List.mem_append.mp hq with hq | hq
  · exact h.switched hl q hq
  · exact h'.switched (h.adds.reliable hl) q hq

/-- A call that changed nothing came before. -/
theorem counted (h : Attempt enabled l.counted out news) : Attempt enabled l out news :=
  ⟨h.adds.counted, h.result, fun hl => h.switched (hl.of_eq hl.connected rfl)⟩

end Attempt

/-- An attempt to attach to one type. Its requests lie where the site asks for, and where no call
fails there is exactly one in each of its places in the type. -/
structure Attaches (site : Site) (type : TypeId) (enabled : Bool) (l : Link)
    (out : List Attachment × Link) (news : List Request) : Prop
    extends Attempt enabled l out news where
  placed : ∀ q ∈ news, q.location.type = type ∧
    ∃ e, l.target.type? type = some e ∧ site.Holds e q.location
  exact : l.Reliable → ∀ e, l.target.type? type = some e →
    news.map (·.location) = site.places e
  single : site.isLine = true → news.length ≤ 1

/-- Where there is code, there is a request. -/
theorem Attaches.complete {site : Site} {type : TypeId} {enabled : Bool} {l : Link}
    {out : List Attachment × Link} {news : List Request} (h : Attaches site type enabled l out news)
    (hl : l.Reliable) (e : TypeEntry) (he : l.target.type? type = some e) (ho : site.Offers e) :
    news ≠ [] := by
  rintro rfl
  exact Site.places_eq_nil.mp (h.exact hl e he).symm ho

namespace Attachment

theorem create_attempt {l : Link} (hs : l.target.Sound) (enabled : Bool) (location : Location) :
    ∃ news, Attempt enabled l (create enabled location l) news ∧ news.length ≤ 1 ∧
      (∀ q ∈ news, q.location = location) ∧
      (l.Reliable → ∀ e, l.target.type? location.type = some e →
        news.map (·.location) = [location]) := by
  simp only [create, OverLink.bind_run, Remote.createRequest, Link.order_result?]
  cases ha : l.answer .createRequest (·.createRequest location) with
  | error fault =>
    refine ⟨[], .nothing rfl rfl, by simp, by simp, ?_⟩
    intro hl e he
    rw [hl.answer, Target.createRequest_of_type hl.connected he] at ha
    contradiction
  | ok a =>
    obtain ⟨id, t⟩ := a
    obtain ⟨hid, ht⟩ := Target.createRequest_ok (Link.answer_ok ha)
    let made : Link := { l.counted with target := t }
    have hadds : l.Adds made [⟨id, location, true⟩] :=
      ⟨by rw [show made.target = t from rfl, ht, hid]; rfl, rfl, by rw [hid]; rfl⟩
    cases enabled with
    | true =>
      exact ⟨[⟨id, location, true⟩], ⟨hadds, rfl, by simp⟩, by simp, by simp, by simp⟩
    | false =>
      have hnew : t.requests = l.target.requests ++ [⟨id, location, true⟩] := by rw [ht]
      simp only [Remote.setRequestEnabled, Bool.false_eq_true, ↓reduceIte, OverLink.bind_run,
        OverLink.discard_run, Link.orderOnly_result?]
      cases hb : made.answer .setRequestEnabled (·.setRequestEnabled id false) with
      | ok t' =>
        obtain rfl := Target.setRequestEnabled_ok (Link.answer_ok hb)
        refine ⟨[⟨id, location, false⟩], ⟨⟨?_, rfl, by rw [hid]; rfl⟩, rfl, by simp⟩, by simp,
          by simp, by simp⟩
        change t.switch [id] false = _
        rw [ht, hid]
        exact hs.switch_newest location
      | error fault =>
        refine ⟨[⟨id, location, true⟩], ⟨hadds.trans (.nothing rfl rfl), rfl, ?_⟩, by simp,
          by simp, by simp⟩
        intro hl
        have hc := hadds.reliable hl
        rcases Target.setRequestEnabled_of_connected hc.connected id false with hok | ⟨hno, -⟩
        · rw [hc.answer, hok] at hb
          contradiction
        · have hmem : ⟨id, location, true⟩ ∈ made.target.requests := by
            rw [show made.target = t from rfl, hnew]
            simp
          exact absurd rfl (hno _ hmem)

theorem toLine_attaches {l : Link} (hs : l.target.Sound) (enabled : Bool) (type : TypeId)
    (file : String) (line : Nat) :
    ∃ news, Attaches (.line file line) type enabled l (toLine enabled type line l) news := by
  have hanswer (hl : l.Reliable) {e : TypeEntry} (he : l.target.type? type = some e) :
      l.answer .locationsForLine (·.locationsForLine type line) =
        .ok ((Site.line file line).places e) := by
    rw [hl.answer, Target.locationsForLine_eq file line hl.connected he]
  have hnone (hr : l.Reliable → ∀ e, l.target.type? type = some e →
      (Site.line file line).places e = []) :
      ∃ news, Attaches (.line file line) type enabled l ([], l.counted) news :=
    ⟨[], .nothing rfl rfl, by simp, fun hl e he => (hr hl e he).symm, by simp⟩
  simp only [toLine, OverLink.bind_run, Remote.locationsForLine, Link.ask_result?]
  cases ha : l.answer .locationsForLine (·.locationsForLine type line) with
  | error fault =>
    refine hnone fun hl e he => ?_
    rw [hanswer hl he] at ha
    contradiction
  | ok locations =>
    obtain ⟨e, he, hsome, hall⟩ := Target.locationsForLine_ok (Link.answer_ok ha)
    cases locations with
    | nil =>
      refine hnone fun hl e he => ?_
      exact Except.ok.inj ((hanswer hl he).symm.trans ha)
    | cons location rest =>
      obtain ⟨rfl, hline, hmem⟩ := hall location (by simp)
      obtain ⟨news, hat, hlen, hloc, hone⟩ := create_attempt (l := l.counted) hs enabled location
      refine ⟨news, hat.counted, ?_, ?_, fun _ => hlen⟩
      · intro q hq
        rw [hloc q hq]
        exact ⟨rfl, e, he, hline, hmem⟩
      · intro hl e he
        have hplaces : location :: rest = (Site.line file line).places e :=
          (Except.ok.inj ((hanswer hl he).symm.trans ha)).symm
        have hrest : rest = [] := by
          simp only [Site.places] at hplaces
          split at hplaces
          · exact (List.cons.inj hplaces).2
          · contradiction
        rw [← hplaces, hrest]
        exact hone (hl.of_eq hl.connected rfl) e he

/-- Attaches to the entry of one method. -/
def toEntry (enabled : Bool) (type : TypeId) (m : Method) : OverLink (List Attachment) := do
  match ← (Remote.methodEntry type m.id).result? with
  | some (some location) => create enabled location
  | _ => return []

theorem toEntries_cons (enabled : Bool) (type : TypeId) (m : Method) (ms : List Method) (l : Link) :
    toEntries enabled type (m :: ms) l =
      ((toEntry enabled type m l).1 ++ (toEntries enabled type ms (toEntry enabled type m l).2).1,
        (toEntries enabled type ms (toEntry enabled type m l).2).2) := by
  simp only [toEntries, toEntry, OverLink.bind_run]
  rcases (Remote.methodEntry type m.id).result? l with ⟨_ | _ | location, l'⟩ <;> rfl

theorem toEntry_attempt {l : Link} (hs : l.target.Sound) (enabled : Bool) (type : TypeId)
    (m : Method) :
    ∃ news, Attempt enabled l (toEntry enabled type m l) news ∧
      (∀ q ∈ news, q.location.type = type ∧ q.location.method = m.id ∧
        ∃ e, l.target.type? type = some e ∧ ∃ d ∈ e.methods, d.1.id = m.id) ∧
      (l.Reliable → ∀ e, l.target.type? type = some e → news.map (·.location) =
        if e.methods.any (·.1.id = m.id) then [⟨type, m.id, e.lines.headD 0, 0⟩] else []) := by
  have hanswer (hl : l.Reliable) {e : TypeEntry} (he : l.target.type? type = some e) :
      l.answer .methodEntry (·.methodEntry type m.id) =
        if e.methods.any (·.1.id = m.id) then .ok (some ⟨type, m.id, e.lines.headD 0, 0⟩)
        else .error (.invalidMethod m.id) := by
    rw [hl.answer, Target.methodEntry_eq m.id hl.connected he]
  simp only [toEntry, OverLink.bind_run, Remote.methodEntry, Link.ask_result?]
  cases ha : l.answer .methodEntry (·.methodEntry type m.id) with
  | error fault =>
    refine ⟨[], .nothing rfl rfl, by simp, fun hl e he => ?_⟩
    rw [hanswer hl he] at ha
    split at ha
    · contradiction
    · rename_i hno
      rw [if_neg hno]
      rfl
  | ok location =>
    obtain ⟨e, place, he, rfl, rfl, hm, hown⟩ := Target.methodEntry_ok (Link.answer_ok ha)
    obtain ⟨news, hat, -, hloc, hone⟩ := create_attempt (l := l.counted) hs enabled place
    refine ⟨news, hat.counted, ?_, ?_⟩
    · intro q hq
      rw [hloc q hq]
      exact ⟨rfl, hm, e, he, hown⟩
    · intro hl e he
      rw [hone (hl.of_eq hl.connected rfl) e he]
      rw [hanswer hl he] at ha
      split at ha
      · rename_i hyes
        rw [if_pos hyes, Option.some.inj (Except.ok.inj ha)]
      · contradiction

theorem toEntries_attempt {l : Link} (hs : l.target.Sound) (enabled : Bool) (type : TypeId)
    (ms : List Method) :
    ∃ news, Attempt enabled l (toEntries enabled type ms l) news ∧
      (∀ q ∈ news, q.location.type = type ∧ ∃ m ∈ ms, q.location.method = m.id ∧
        ∃ e, l.target.type? type = some e ∧ ∃ d ∈ e.methods, d.1.id = m.id) ∧
      (l.Reliable → ∀ e, l.target.type? type = some e → news.map (·.location) =
        (ms.filter fun m => e.methods.any (·.1.id = m.id)).map
          fun m => ⟨type, m.id, e.lines.headD 0, 0⟩) := by
  induction ms generalizing l with
  | nil => exact ⟨[], .nothing rfl rfl, by simp, by simp⟩
  | cons m ms ih =>
    obtain ⟨here, hat, hplace, hone⟩ := toEntry_attempt hs enabled type m
    obtain ⟨more, hat', hplace', hone'⟩ := ih (hat.adds.sound hs)
    refine ⟨here ++ more, ?_, ?_, ?_⟩
    · rw [toEntries_cons]
      exact hat.append hat'
    · intro q hq
      rcases List.mem_append.mp hq with hq | hq
      · obtain ⟨ht, hm, hown⟩ := hplace q hq
        exact ⟨ht, m, by simp, hm, hown⟩
      · obtain ⟨ht, m', hm', hown⟩ := hplace' q hq
        rw [hat.adds.type?] at hown
        exact ⟨ht, m', List.mem_cons_of_mem _ hm', hown⟩
    · intro hl e he
      rw [List.map_append, hone hl e he,
        hone' (hat.adds.reliable hl) e (by rw [hat.adds.type?, he]), List.filter_cons]
      split <;> rfl

/-- Of the methods found for a name those with an entry are the type's own. -/
theorem own_entries {t : Target} (hs : t.Sound) {type : TypeId} {e : TypeEntry}
    (he : t.type? type = some e) {name : String} {ms : List Method}
    (hms : t.methodsByName type name = .ok ms) (params : Option (List String)) :
    ((ms.filter fun m => params.all (· = m.params)).filter
        fun m => e.methods.any (·.1.id = m.id)) =
      (e.methods.map (·.1)).filter fun m => m.name = name && params.all (· = m.params) := by
  obtain ⟨e', extra, he', heq, hextra⟩ := Target.methodsByName_eq hms
  obtain rfl : e = e' := Option.some.inj (he.symm.trans he')
  have hnone : extra.filter (fun m => e.methods.any (·.1.id = m.id)) = [] := by
    refine List.filter_eq_nil_iff.mpr fun m hm hany => ?_
    obtain ⟨d, hd, hid⟩ := List.any_eq_true.mp hany
    obtain ⟨-, ⟨c, hc, hmc⟩, hforeign⟩ := hextra m hm
    obtain ⟨m', hm', rfl⟩ := List.mem_map.mp hmc
    -- A number belongs to one method only, and this one would be the type's own.
    obtain rfl := hs.method_unique (List.mem_of_find?_eq_some he) hd hc hm' (by simpa using hid)
    exact hforeign (List.mem_map_of_mem hd)
  have hown : ((e.methods.map (·.1)).filter (·.name = name)).filter
      (fun m => e.methods.any (·.1.id = m.id)) = (e.methods.map (·.1)).filter (·.name = name) := by
    refine List.filter_eq_self.mpr fun m hm => ?_
    obtain ⟨d, hd, rfl⟩ := List.mem_map.mp (List.mem_filter.mp hm).1
    exact List.any_eq_true.mpr ⟨d, hd, by simp⟩
  rw [List.filter_comm, heq, List.filter_append, hown, hnone, List.append_nil, List.filter_filter]
  exact List.filter_congr fun m _ => Bool.and_comm _ _

theorem toMethod_attaches {l : Link} (hs : l.target.Sound) (enabled : Bool) (type : TypeId)
    (owner name : String) (params : Option (List String)) :
    ∃ news, Attaches (.method owner name params) type enabled l
      (toMethod enabled type name params l) news := by
  simp only [toMethod, OverLink.bind_run, Remote.methodsByName, Link.ask_result?]
  cases ha : l.answer .methodsByName (·.methodsByName type name) with
  | error fault =>
    refine ⟨[], .nothing rfl rfl, by simp, ?_, by simp [Site.isLine]⟩
    intro hl e he
    obtain ⟨ms, hk⟩ := Target.methodsByName_of_type name hl.connected he
    rw [hl.answer, hk] at ha
    contradiction
  | ok ms =>
    have hms := Link.answer_ok ha
    obtain ⟨news, hat, hplace, hone⟩ := toEntries_attempt (l := l.counted) hs enabled type
      (ms.filter fun m => params.all (· = m.params))
    refine ⟨news, hat.counted, ?_, ?_, by simp [Site.isLine]⟩
    · intro q hq
      obtain ⟨ht, m, hm, hid, e, he, d, hd, hdm⟩ := hplace q hq
      obtain ⟨hm, hps⟩ := List.mem_filter.mp hm
      obtain ⟨hn, c, hc, hmc⟩ := Target.mem_methodsByName hms hm
      obtain ⟨m', hm', rfl⟩ := List.mem_map.mp hmc
      -- Inherited methods have no entry here, so the number is that of an own method.
      obtain rfl := hs.method_unique (List.mem_of_find?_eq_some he) hd hc hm' hdm
      refine ⟨ht, e, he, d, hd, hid.symm, hn, ?_⟩
      intro ps hmem
      rw [Option.mem_def.mp hmem] at hps
      simpa using Eq.symm (by simpa using hps)
    · intro hl e he
      rw [hone (hl.of_eq hl.connected rfl) e he, own_entries hs he hms,
        (hs.type?_eq_some.mp he).2.symm]
      rfl

end Attachment

/-! ### Scans -/

/-- An attempt to attach to each of these types. Where no call fails there is exactly one request in
each of its places in those that the site asks for; a line gets at most one in each type. -/
structure Scan (mode : SourceMatch) (site : Site) (types : List TypeId) (enabled : Bool) (l : Link)
    (out : List Attachment × Link) (news : List Request) : Prop
    extends Attempt enabled l out news where
  placed : ∀ q ∈ news, q.location.type ∈ types ∧ ∃ e, l.target.type? q.location.type = some e ∧
    site.Concerns mode e ∧ site.Holds e q.location
  exact : l.Reliable → types.Nodup → ∀ type ∈ types, ∀ e, l.target.type? type = some e →
    site.Concerns mode e → (news.map (·.location)).filter (·.type = type) = site.places e
  apart : site.isLine = true → (news.map (·.location.type)).Sublist types

namespace Scan

variable {mode : SourceMatch} {site : Site} {type : TypeId} {types : List TypeId} {enabled : Bool}
  {l : Link} {out more : List Attachment × Link} {news news' : List Request}

theorem nil : Scan mode site [] enabled l ([], l) [] :=
  ⟨.nothing rfl rfl, by simp, by simp, by simp⟩

theorem counted (h : Scan mode site types enabled l.counted out news) :
    Scan mode site types enabled l out news :=
  ⟨h.toAttempt.counted, h.placed, fun hl => h.exact (hl.of_eq hl.connected rfl), h.apart⟩

/-- Where there is code, there is a request. -/
theorem complete (h : Scan mode site types enabled l out news) (hl : l.Reliable)
    (hnodup : types.Nodup) (hm : type ∈ types) {e : TypeEntry}
    (he : l.target.type? type = some e) (hc : site.Concerns mode e) (ho : site.Offers e) :
    type ∈ news.map (·.location.type) := by
  have hplaces := h.exact hl hnodup type hm e he hc
  have hsome : (news.map (·.location)).filter (·.type = type) ≠ [] := by
    rw [hplaces]
    exact fun hnone => Site.places_eq_nil.mp hnone ho
  obtain ⟨location, hlocation⟩ := List.exists_mem_of_ne_nil _ hsome
  obtain ⟨hlocation, htype⟩ := List.mem_filter.mp hlocation
  obtain ⟨q, hq, rfl⟩ := List.mem_map.mp hlocation
  exact List.mem_map.mpr ⟨q, hq, by simpa using htype⟩

/-- There are no requests in other types. -/
theorem elsewhere (h : Scan mode site types enabled l out news) (hno : type ∉ types) :
    (news.map (·.location)).filter (·.type = type) = [] := by
  refine List.filter_eq_nil_iff.mpr fun location hm htype => ?_
  obtain ⟨q, hq, rfl⟩ := List.mem_map.mp hm
  exact hno (of_decide_eq_true htype ▸ (h.placed q hq).1)

theorem cons (h : Attaches site type enabled l out news)
    (hc : ∀ e, l.target.type? type = some e → site.Concerns mode e)
    (h' : Scan mode site types enabled out.2 more news') :
    Scan mode site (type :: types) enabled l (out.1 ++ more.1, more.2) (news ++ news') := by
  refine ⟨h.toAttempt.append h'.toAttempt, ?_, ?_, ?_⟩
  · intro q hq
    rcases List.mem_append.mp hq with hq | hq
    · obtain ⟨rfl, e, he, hh⟩ := h.placed q hq
      exact ⟨by simp, e, he, hc e he, hh⟩
    · obtain ⟨hm, hin⟩ := h'.placed q hq
      rw [h.adds.type?] at hin
      exact ⟨List.mem_cons_of_mem _ hm, hin⟩
  · intro hl hnodup i hi e he hce
    obtain ⟨hnew, hnodup⟩ := List.nodup_cons.mp hnodup
    have hhere : ∀ location ∈ news.map (·.location), location.type = type := by
      intro location hm
      obtain ⟨q, hq, rfl⟩ := List.mem_map.mp hm
      exact (h.placed q hq).1
    rw [List.map_append, List.filter_append]
    rcases List.mem_cons.mp hi with rfl | hi
    · rw [h'.elsewhere hnew, List.append_nil, h.exact hl e he]
      rw [h.exact hl e he] at hhere
      exact List.filter_eq_self.mpr fun location hm => by simpa using hhere location hm
    · have hnone : (news.map (·.location)).filter (·.type = i) = [] := by
        refine List.filter_eq_nil_iff.mpr fun location hm htype => ?_
        exact hnew ((hhere location hm).symm.trans (of_decide_eq_true htype) ▸ hi)
      rw [hnone, List.nil_append]
      exact h'.exact (h.adds.reliable hl) hnodup i hi e (by rw [h.adds.type?, he]) hce
  · intro hline
    rw [List.map_append]
    have hhere : (news.map (·.location.type)).Sublist [type] := by
      match news, h.single hline, h.placed with
      | [], _, _ => exact List.nil_sublist _
      | [q], _, hp => rw [List.map_singleton, (hp q (by simp)).1]
    exact hhere.append (h'.apart hline)

/-- A type without such code is passed over. -/
theorem skip (hno : l.Reliable → ∀ e, l.target.type? type = some e → site.Concerns mode e →
    ¬ site.Offers e) (h : Scan mode site types enabled l out news) :
    Scan mode site (type :: types) enabled l out news := by
  refine ⟨h.toAttempt, ?_, ?_, fun hline => (h.apart hline).cons type⟩
  · exact fun q hq => ⟨List.mem_cons_of_mem _ (h.placed q hq).1, (h.placed q hq).2⟩
  · intro hl hnodup i hi e he hc
    obtain ⟨hnew, hnodup⟩ := List.nodup_cons.mp hnodup
    rcases List.mem_cons.mp hi with rfl | hi
    · rw [h.elsewhere hnew, Site.places_eq_nil.mpr (hno hl e he hc)]
    · exact h.exact hl hnodup i hi e he hc

end Scan

theorem sourceOf_run (type : TypeId) (l : Link) : sourceOf type l =
    ((l.answer .sourceFile (·.sourceFile type)).toOption.join, l.counted) := by
  simp only [sourceOf, OverLink.bind_run, Remote.sourceFile, Link.ask_result?]
  rfl

theorem sourceOf_some {type : TypeId} {l : Link} {source : String}
    (h : (sourceOf type l).1 = some source) :
    ∃ e, l.target.type? type = some e ∧ e.sourceFile = some source := by
  rw [sourceOf_run] at h
  cases ha : l.answer .sourceFile (·.sourceFile type) with
  | error fault => simp [ha, Except.toOption] at h
  | ok s =>
    obtain ⟨e, he, hs⟩ := Target.sourceFile_ok (Link.answer_ok ha)
    refine ⟨e, he, ?_⟩
    rw [hs]
    simpa [ha, Except.toOption] using h

theorem sourceOf_of_type {type : TypeId} {l : Link} {e : TypeEntry} (hl : l.Reliable)
    (he : l.target.type? type = some e) : (sourceOf type l).1 = e.sourceFile := by
  rw [sourceOf_run, hl.answer, Target.sourceFile_of_type hl.connected he]
  rfl

namespace Registry

theorem scanLines_scan {l : Link} (hs : l.target.Sound) (mode : SourceMatch) (enabled : Bool)
    (file : String) (line : Nat) (types : List TypeId) :
    ∃ news, Scan mode (.line file line) types enabled l
        ((scanLines mode enabled file line types l).1.2,
          (scanLines mode enabled file line types l).2) news ∧
      ∃ found : List TypeId, found.Sublist types ∧
        (scanLines mode enabled file line types l).1.1 = found.length ∧
        ∀ type ∈ found, ∃ e, l.target.type? type = some e ∧
          (Site.line file line).Concerns mode e := by
  induction types generalizing l with
  | nil => exact ⟨[], .nil, [], .slnil, rfl, by simp⟩
  | cons type types ih =>
    have hrun : (sourceOf type l).2 = l.counted := by rw [sourceOf_run]
    simp only [scanLines, OverLink.bind_run, hrun]
    have hskip (hno : ∀ source, (sourceOf type l).1 = some source →
        SourcePath.sourceMatches mode file source ≠ true) : l.Reliable → ∀ e,
        l.target.type? type = some e → (Site.line file line).Concerns mode e →
        ¬ (Site.line file line).Offers e := by
      intro hl e he ⟨source, hsource, hm⟩ _
      exact hno source (by rw [sourceOf_of_type hl he, hsource]) hm
    cases hsource : (sourceOf type l).1 with
    | none =>
      obtain ⟨news, hscan, found, hsub, hlen, hfound⟩ := ih (l := l.counted) hs
      exact ⟨news, hscan.counted.skip (hskip (by simp [hsource])), found, hsub.cons type, hlen,
        hfound⟩
    | some source =>
      by_cases hm : SourcePath.sourceMatches mode file source = true
      · simp only [hm, ↓reduceIte]
        obtain ⟨e, he, hes⟩ := sourceOf_some hsource
        have hconcerns : (Site.line file line).Concerns mode e := ⟨source, hes, hm⟩
        obtain ⟨here, hat⟩ := Attachment.toLine_attaches (l := l.counted) hs enabled type file line
        obtain ⟨more, hscan, found, hsub, hlen, hfound⟩ := ih (hat.adds.sound hs)
        refine ⟨here ++ more, (Scan.cons hat ?_ hscan).counted, type :: found, hsub.cons_cons type,
          congrArg (· + 1) hlen, ?_⟩
        · intro e' he'
          obtain rfl : e = e' := Option.some.inj (he.symm.trans he')
          exact hconcerns
        · intro i hi
          rcases List.mem_cons.mp hi with rfl | hi
          · exact ⟨e, he, hconcerns⟩
          · obtain ⟨d, hd, hdc⟩ := hfound i hi
            exact ⟨d, (hat.adds.type? i).symm.trans hd, hdc⟩
      · simp only [hm]
        obtain ⟨news, hscan, found, hsub, hlen, hfound⟩ := ih (l := l.counted) hs
        refine ⟨news, hscan.counted.skip (hskip ?_), found, hsub.cons type, hlen, hfound⟩
        intro s hs'
        obtain rfl : source = s := Option.some.inj (hsource.symm.trans hs')
        exact hm

theorem scanMethods_scan {l : Link} (hs : l.target.Sound) (mode : SourceMatch) (enabled : Bool)
    (owner name : String) (params : Option (List String)) (types : List TypeId)
    (hn : ∀ type ∈ types, ∀ e, l.target.type? type = some e → e.name = owner) :
    ∃ news, Scan mode (.method owner name params) types enabled l
      (scanMethods enabled name params types l) news := by
  induction types generalizing l with
  | nil => exact ⟨[], .nil⟩
  | cons type types ih =>
    obtain ⟨here, hat⟩ := Attachment.toMethod_attaches hs enabled type owner name params
    obtain ⟨more, hscan⟩ := ih (hat.adds.sound hs) fun type ht e he =>
      hn type (List.mem_cons_of_mem _ ht) e (by rw [← hat.adds.type?, he])
    exact ⟨here ++ more, Scan.cons hat (hn type (by simp)) hscan⟩

end Registry

end Debugger
