import Mathlib.Data.List.Lattice
import Mathlib.Data.List.Nodup
import Mathlib.Data.List.Pairwise
import Debugger.Target.Calls

/-!
The target over time. What happens to it apart from the requests of a debugger leaves those
requests alone and only adds to its types.
-/

namespace Debugger

/-- The numbers that a type takes from the common counter. -/
def TypeEntry.numbers (e : TypeEntry) : List Nat :=
  e.id :: e.methods.map (·.1.id)

/-- The same type later on: it may have been loaded, and stays so. -/
structure TypeEntry.Becomes (e e' : TypeEntry) : Prop where
  same : e' = { e with loaded := e'.loaded }
  loaded : e.loaded = true → e'.loaded = true

namespace Target

def numbers (t : Target) : List Nat :=
  t.types.flatMap TypeEntry.numbers

def requestNumbers (t : Target) : List RequestId :=
  t.requests.map (·.id) ++ t.subscriptions.map (·.1)

/-- Types and methods are numbered as they were made, no two requests or subscriptions share a
number, and no number in use is still to come. -/
structure Sound (t : Target) : Prop where
  ordered : t.numbers.Pairwise (· < ·)
  issued : ∀ n ∈ t.numbers, n ≤ t.lastId
  distinct : t.requestNumbers.Nodup
  requested : ∀ n ∈ t.requestNumbers, n ≤ t.lastRequest

/-- The counter of requests and subscriptions is still within the numbers of 32 bits. -/
def Unwrapped (t : Target) : Prop :=
  t.lastRequest < UInt32.size

instance (t : Target) : Decidable t.Unwrapped :=
  inferInstanceAs (Decidable (_ < _))

/-- No two requests or subscriptions have the same number of 32 bits. -/
def NumbersDiffer (t : Target) : Prop :=
  (t.requestNumbers.map Nat.toUInt32).Nodup

theorem Sound.numbersDiffer {t : Target} (h : t.Sound) (hroom : t.Unwrapped) :
    t.NumbersDiffer := by
  have hsmall {n : RequestId} (hn : n ∈ t.requestNumbers) : n.toUInt32.toNat = n :=
    Nat.mod_eq_of_lt (Nat.lt_of_le_of_lt (h.requested n hn) hroom)
  refine h.distinct.map_on fun n hn m hm heq => ?_
  rw [← hsmall hn, ← hsmall hm, heq]

theorem Sound.types_nodup {t : Target} (h : t.Sound) : (t.types.map (·.id)).Nodup := by
  have hp := (List.pairwise_flatMap.mp h.ordered).2
  refine List.pairwise_map.mpr (hp.imp ?_)
  intro a b hab
  exact Nat.ne_of_lt (hab a.id (by simp [TypeEntry.numbers]) b.id (by simp [TypeEntry.numbers]))

theorem mem_of_type? {t : Target} {id : TypeId} {e : TypeEntry} (h : t.type? id = some e) :
    e ∈ t.types ∧ e.id = id :=
  ⟨List.mem_of_find?_eq_some h, by simpa using List.find?_some h⟩

/-- Where types have numbers of their own, each is found under its own. -/
theorem type?_of_mem {t : Target} (h : (t.types.map (·.id)).Nodup) {e : TypeEntry}
    (he : e ∈ t.types) : t.type? e.id = some e := by
  cases hf : t.type? e.id with
  | none => simpa using List.find?_eq_none.mp hf e he
  | some d =>
    obtain ⟨hd, hid⟩ := mem_of_type? hf
    rw [List.inj_on_of_nodup_map h hd he hid]

theorem Sound.type?_eq_some {t : Target} (h : t.Sound) {id : TypeId} {e : TypeEntry} :
    t.type? id = some e ↔ e ∈ t.types ∧ e.id = id := by
  refine ⟨mem_of_type?, ?_⟩
  rintro ⟨hm, rfl⟩
  exact type?_of_mem h.types_nodup hm

/-- The methods of a type have numbers of their own. -/
theorem Sound.methods_nodup {t : Target} (h : t.Sound) {e : TypeEntry} (he : e ∈ t.types) :
    (e.methods.map (·.1.id)).Nodup :=
  (List.nodup_cons.mp ((List.nodup_flatMap.mp (h.ordered.imp Nat.ne_of_lt)).1 e he)).2

/-- A method's number tells which type declares it, and which of its methods it is. -/
theorem Sound.method_unique {t : Target} (h : t.Sound) {e e' : TypeEntry}
    {m m' : Method × Behaviour} (he : e ∈ t.types) (hm : m ∈ e.methods) (he' : e' ∈ t.types)
    (hm' : m' ∈ e'.methods) (hid : m.1.id = m'.1.id) : m = m' := by
  have hn : t.numbers.Nodup := h.ordered.imp Nat.ne_of_lt
  have hapart := (List.nodup_flatMap.mp hn).2
  have hmem {e : TypeEntry} {m : Method × Behaviour} (hm : m ∈ e.methods) : m.1.id ∈ e.numbers :=
    List.mem_cons_of_mem _ (List.mem_map.mpr ⟨m, hm, rfl⟩)
  have hee : e = e' := by
    by_contra hne
    have hd : e.numbers.Disjoint e'.numbers := by
      have : Std.Symm (Function.onFun List.Disjoint TypeEntry.numbers) :=
        ⟨fun _ _ h => List.Disjoint.symm h⟩
      exact hapart.forall he he' hne
    exact hd (hmem hm) (hid ▸ hmem hm')
  subst hee
  exact List.inj_on_of_nodup_map (h.methods_nodup he) hm hm' hid

theorem Sound.requests_nodup {t : Target} (h : t.Sound) : (t.requests.map (·.id)).Nodup :=
  (List.nodup_append.mp h.distinct).1

theorem Sound.request_le {t : Target} (h : t.Sound) {q : Request} (hq : q ∈ t.requests) :
    q.id ≤ t.lastRequest :=
  h.requested q.id (List.mem_append_left _ (List.mem_map.mpr ⟨q, hq, rfl⟩))

theorem Sound.request_unique {t : Target} (h : t.Sound) {p q : Request} (hp : p ∈ t.requests)
    (hq : q ∈ t.requests) (hid : p.id = q.id) : p = q :=
  List.inj_on_of_nodup_map h.requests_nodup hp hq hid

/-- No request shares its number with a subscription. -/
theorem Sound.request_ne {t : Target} (h : t.Sound) {q : Request} {s : RequestId × String}
    (hq : q ∈ t.requests) (hs : s ∈ t.subscriptions) : q.id ≠ s.1 :=
  (List.nodup_append.mp h.distinct).2.2 q.id (List.mem_map.mpr ⟨q, hq, rfl⟩) s.1
    (List.mem_map.mpr ⟨s, hs, rfl⟩)

/-! ### What leaves requests alone -/

/-- Requests and subscriptions stay as they are. Types are only added or loaded, and a target that
is gone does not come back. -/
structure Evolves (t t' : Target) : Prop where
  requests : t'.requests = t.requests
  subscriptions : t'.subscriptions = t.subscriptions
  lastRequest : t'.lastRequest = t.lastRequest
  connected : t'.connected = true → t.connected = true
  types : ∀ {id e}, t.type? id = some e → ∃ e', t'.type? id = some e' ∧ e.Becomes e'
  sound : t.Sound → t'.Sound

theorem Evolves.refl (t : Target) : t.Evolves t :=
  ⟨rfl, rfl, rfl, id, fun h => ⟨_, h, rfl, id⟩, id⟩

theorem Evolves.trans {t t' t'' : Target} (h : t.Evolves t') (h' : t'.Evolves t'') :
    t.Evolves t'' := by
  refine ⟨h'.requests.trans h.requests, h'.subscriptions.trans h.subscriptions,
    h'.lastRequest.trans h.lastRequest, fun hc => h.connected (h'.connected hc), ?_,
    fun hs => h'.sound (h.sound hs)⟩
  intro id e he
  obtain ⟨e', he', hb⟩ := h.types he
  obtain ⟨e'', he'', hb'⟩ := h'.types he'
  refine ⟨e'', he'', ?_, fun hl => hb'.loaded (hb.loaded hl)⟩
  rw [hb'.same, hb.same]

/-- Anything may happen to the heap, the threads and the logs. -/
theorem Evolves.of_same {t t' : Target} (htypes : t'.types = t.types)
    (hreq : t'.requests = t.requests) (hsub : t'.subscriptions = t.subscriptions)
    (hlast : t'.lastRequest = t.lastRequest) (hid : t.lastId ≤ t'.lastId)
    (hc : t'.connected = true → t.connected = true) : t.Evolves t' := by
  have htype (id : TypeId) : t'.type? id = t.type? id := by rw [type?, type?, htypes]
  refine ⟨hreq, hsub, hlast, hc, fun h => ⟨_, (htype _).trans h, rfl, id⟩, ?_⟩
  intro hs
  refine ⟨by rw [numbers, htypes]; exact hs.ordered, ?_, ?_, ?_⟩
  · intro n hn
    rw [numbers, htypes] at hn
    exact Nat.le_trans (hs.issued n hn) hid
  · rw [requestNumbers, hreq, hsub]
    exact hs.distinct
  · rw [requestNumbers, hreq, hsub, hlast]
    exact hs.requested

theorem numberMethods_ids (next : MethodId) (ms : List MethodSpec) :
    (numberMethods next ms).map (·.1.id) = List.range' next ms.length := by
  induction ms generalizing next with
  | nil => rfl
  | cons m ms ih => simp [numberMethods, ih, List.range'_succ]

theorem define_numbers (t : Target) (spec : TypeSpec) (loaded : Bool) :
    (t.define spec loaded).2.numbers =
      t.numbers ++ List.range' (t.lastId + 1) (spec.methods.length + 1) := by
  simp [numbers, define, TypeEntry.numbers, numberMethods_ids, List.range'_succ]

theorem define_evolves (t : Target) (spec : TypeSpec) (loaded : Bool) :
    t.Evolves (t.define spec loaded).2 := by
  refine ⟨rfl, rfl, rfl, id, ?_, ?_⟩
  · intro id e he
    refine ⟨e, ?_, rfl, fun h => h⟩
    simp only [define, type?, List.find?_append] at he ⊢
    rw [he]
    rfl
  · intro hs
    refine ⟨?_, ?_, hs.distinct, hs.requested⟩
    · rw [define_numbers]
      refine List.pairwise_append.mpr ⟨hs.ordered, List.pairwise_lt_range', ?_⟩
      intro a ha b hb
      have := hs.issued a ha
      have := (List.mem_range'_1.mp hb).1
      omega
    · intro n hn
      rw [define_numbers] at hn
      change n ≤ t.lastId + 1 + spec.methods.length
      rcases List.mem_append.mp hn with hm | hm
      · have := hs.issued n hm
        omega
      · have := (List.mem_range'_1.mp hm).2
        omega

theorem ensureType_evolves (t : Target) (name : String) : t.Evolves (t.ensureType name).2 := by
  unfold ensureType
  split
  · exact .refl t
  · exact define_evolves ..

theorem allocate_evolves (t : Target) (cell : HeapCell) : t.Evolves (t.allocate cell).2 :=
  .of_same rfl rfl rfl rfl (Nat.le_succ _) id

theorem resume_ok {t t' : Target} {thread : ThreadId} (h : t.resume thread = .ok t') :
    t' = t.updateThread thread ({ · with suspended := false }) := by
  simp only [resume, bind, Except.bind] at h
  split at h
  · contradiction
  · exact (Except.ok.inj h).symm

theorem updateThread_evolves (t : Target) (id : ThreadId) (f : Thread → Thread) :
    t.Evolves (t.updateThread id f) :=
  .of_same rfl rfl rfl rfl (Nat.le_refl _) fun h => h

theorem emit_evolves (t : Target) (event : Event) : t.Evolves (t.emit event) :=
  .of_same rfl rfl rfl rfl (Nat.le_refl _) id

theorem load_evolves (t : Target) (id : TypeId) : t.Evolves (t.load id) := by
  unfold load
  split
  · exact .refl t
  · rename_i e _
    let mark : TypeEntry → TypeEntry := fun e => if e.id = id then { e with loaded := true } else e
    have hid (e : TypeEntry) : (mark e).id = e.id := by simp only [mark]; split <;> rfl
    have hnum (e : TypeEntry) : (mark e).numbers = e.numbers := by
      simp only [mark]; split <;> rfl
    have hm : t.Evolves { t with types := t.types.map mark } := by
      refine ⟨rfl, rfl, rfl, fun h => h, ?_, ?_⟩
      · intro i e he
        refine ⟨mark e, ?_, ?_, ?_⟩
        · have hp : (fun e : TypeEntry => decide (e.id = i)) ∘ mark = fun e => decide (e.id = i) :=
            funext fun e => by simp only [Function.comp_apply, hid]
          simp only [type?, List.find?_map, hp] at he ⊢
          rw [he]
          rfl
        · simp only [mark]; split <;> rfl
        · intro hl
          simp only [mark]; split
          · rfl
          · exact hl
      · intro hs
        have : ({ t with types := t.types.map mark } : Target).numbers = t.numbers := by
          simp only [numbers, List.flatMap_map, hnum]
        exact ⟨by rw [this]; exact hs.ordered, by rw [this]; exact hs.issued, hs.distinct,
          hs.requested⟩
    dsimp only
    split
    · exact hm.trans (emit_evolves _ _)
    · exact hm

/-! ### What happens to a target -/

/-- What happens to a target apart from the calls of a debugger. -/
inductive Change where
  | define (spec : TypeSpec) (loaded : Bool)
  | load (type : TypeId)
  | newObject (type : TypeId) (fields : List (String × Datum))
  | newString (text : String)
  | newArray (element : String) (elements : List Datum)
  | collect (object : ObjectId)
  | addThread
  | pushFrame (thread : ThreadId) (type : TypeId) (this : Option ObjectId) (line : Nat)
      (locals : List Local)
  | setLocal (thread : ThreadId) (frame : FrameId) (name : String) (value : Datum)
  | suspend (thread : ThreadId)
  | hit (request : RequestId) (thread : ThreadId)
  | emit (event : Event)
  | disconnect

def Change.apply (t : Target) : Change → Target
  | define spec loaded => (t.define spec loaded).2
  | load type => t.load type
  | newObject type fields => (t.newObject type fields).2
  | newString text => (t.newString text).2
  | newArray element elements => (t.newArray element elements).2
  | collect object => t.collect object
  | addThread => t.addThread.2
  | pushFrame thread type this line locals => (t.pushFrame thread type this line locals).2
  | setLocal thread frame name value => t.setLocal thread frame name value
  | suspend thread => t.suspend thread
  | hit request thread => t.hit request thread
  | emit event => t.emit event
  | disconnect => t.disconnect

theorem Change.evolves (t : Target) (c : Change) : t.Evolves (c.apply t) := by
  cases c with
  | define spec loaded => exact define_evolves t spec loaded
  | load type => exact load_evolves t type
  | newObject type fields => exact allocate_evolves t _
  | newString text => exact allocate_evolves t _
  | newArray element elements => exact (ensureType_evolves t _).trans (allocate_evolves _ _)
  | collect object => exact .of_same rfl rfl rfl rfl (Nat.le_refl _) id
  | addThread => exact .of_same rfl rfl rfl rfl (Nat.le_succ _) id
  | pushFrame thread type this line locals => exact .of_same rfl rfl rfl rfl (Nat.le_succ _) id
  | setLocal thread frame name value => exact updateThread_evolves t _ _
  | suspend thread => exact updateThread_evolves t _ _
  | hit request thread =>
    have hs := updateThread_evolves t thread ({ · with suspended := true })
    simp only [apply, Target.hit]
    split
    · exact hs.trans (emit_evolves _ _)
    · exact hs
  | emit event => exact emit_evolves t event
  | disconnect =>
    exact .of_same rfl rfl rfl rfl (Nat.le_refl _) (by simp [apply, Target.disconnect, Target.emit])

theorem start_sound : start.Sound := by
  have h0 : Sound {} := ⟨.nil, by simp [numbers], .nil, by simp [requestNumbers]⟩
  exact (((define_evolves _ _ _).trans (define_evolves _ _ _)).trans (define_evolves _ _ _)).trans
    (define_evolves _ _ _) |>.sound h0

end Target

end Debugger
