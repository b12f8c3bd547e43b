import Mathlib.Data.List.Infix
import Mathlib.Data.List.Lattice
import Mathlib.Data.List.Nodup
import Mathlib.Data.List.Perm.Subperm
import Mathlib.Logic.Function.Iterate
import Debugger.Handles

/-!
Handles over every run of a table: what it says of a handle in one place agrees with what it says in
the others, a new handle is one that was free, and a pinned one keeps its object.
-/

namespace Debugger

/-! ### Numbers -/

namespace Handle

theorem toNat_after (n : UInt32) : (after n).toNat = n.toNat % 4294967295 + 1 := by
  have hlt := n.toNat_lt
  unfold after
  split
  · rename_i hwrap
    have hzero : (n.toNat + 1) % 4294967296 = 0 := by simpa using congrArg UInt32.toNat hwrap
    rw [show n.toNat = 4294967295 by omega]
    rfl
  · rename_i hmore
    have hne : (n.toNat + 1) % 4294967296 ≠ 0 := by
      intro hzero
      exact hmore (UInt32.toNat_inj.mp (by simpa using hzero))
    rw [UInt32.toNat_add]
    simp only [UInt32.toNat_one, Nat.reducePow]
    omega

theorem after_ne_zero (n : UInt32) : after n ≠ 0 := by
  intro h
  have hnat := congrArg UInt32.toNat h
  rw [toNat_after] at hnat
  simp at hnat

/-- The numbers go round in a circle of all but zero. -/
theorem toNat_iterate_after {n : UInt32} (hn : n ≠ 0) (k : Nat) :
    (after^[k] n).toNat = (n.toNat - 1 + k) % 4294967295 + 1 := by
  have hpos : n.toNat ≠ 0 := fun h => hn (UInt32.toNat_inj.mp (by simpa using h))
  have hlt := n.toNat_lt
  induction k with
  | zero =>
    rw [Function.iterate_zero_apply]
    omega
  | succ k ih =>
    rw [Function.iterate_succ_apply', toNat_after, ih]
    omega

theorem iterate_after_inj {n : UInt32} (hn : n ≠ 0) {i j : Nat} (hi : i < 4294967295)
    (hj : j < 4294967295) (h : after^[i] n = after^[j] n) : i = j := by
  have hnat := congrArg UInt32.toNat h
  have hlt := n.toNat_lt
  rw [toNat_iterate_after hn, toNat_iterate_after hn] at hnat
  omega

end Handle

namespace Handles

/-! ### Runs -/

/-- What is done with a table of handles. -/
inductive Act where
  | track (object : ObjectId) (type : String)
  | pin (handle : Handle)
  | unpin (handle : Handle)
  | markInvalid (object : ObjectId)
  | clearUnpinned
deriving DecidableEq, Repr

def perform (hs : Handles) : Act → Handles
  | .track object type => (hs.track object type).2
  | .pin h => hs.pin h
  | .unpin h => hs.unpin h
  | .markInvalid object => hs.markInvalid object
  | .clearUnpinned => hs.clearUnpinned

def run (acts : List Act) (hs : Handles) : Handles :=
  acts.foldl perform hs

/-- There is a free number in every state of the run. -/
def Roomy (acts : List Act) (hs : Handles) : Prop :=
  ∀ before, before <+: acts → (run before hs).size < 4294967295

theorem run_append (before after : List Act) (hs : Handles) :
    run (before ++ after) hs = run after (run before hs) :=
  List.foldl_append

theorem Roomy.tail {act : Act} {acts : List Act} {hs : Handles} (h : Roomy (act :: acts) hs) :
    Roomy acts (hs.perform act) :=
  fun before hbefore => h (act :: before) (List.cons_prefix_cons.mpr ⟨rfl, hbefore⟩)

theorem Roomy.head {acts : List Act} {hs : Handles} (h : Roomy acts hs) : hs.size < 4294967295 :=
  h [] (List.nil_prefix)

theorem Roomy.append {before after : List Act} {hs : Handles} (h : Roomy (before ++ after) hs) :
    Roomy before hs ∧ Roomy after (run before hs) := by
  refine ⟨fun front hfront => h front (hfront.trans (List.prefix_append _ _)), ?_⟩
  intro front hfront
  rw [← run_append]
  exact h _ ((List.prefix_append_right_inj before).mpr hfront)

/-! ### Consistency -/

/-- Objects and live handles name each other, and none has two names. -/
structure Paired (hs : Handles) : Prop where
  handles : (hs.entries.map (·.handle)).Nodup
  objects : (hs.byObject.map (·.1)).Nodup
  pairs : ∀ object h, (object, h) ∈ hs.byObject ↔
    ∃ e ∈ hs.entries, e.handle = h ∧ e.object = object

/-- Each live handle is either pinned or in the queue, and stands there once. -/
structure Filed (hs : Handles) : Prop extends Paired hs where
  filed : (hs.pinned ++ hs.queue).Perm (hs.entries.map (·.handle))

/-- The queue is within its bound, and the next number to try is one. -/
structure Consistent (hs : Handles) : Prop extends Filed hs where
  bounded : hs.queue.length ≤ hs.limit
  counter : hs.next ≠ 0

/-- The table without some of its handles. -/
def without (hs : Handles) (gone : List Handle) : Handles :=
  { hs with
    entries := hs.entries.filter (·.handle ∉ gone)
    byObject := hs.byObject.filter (·.2 ∉ gone) }

variable {hs : Handles}

theorem isLive_iff {h : Handle} : hs.isLive h = true ↔ h ∈ hs.entries.map (·.handle) := by
  simp [isLive, find?, List.find?_isSome]

theorem isPinned_iff {h : Handle} : hs.isPinned h = true ↔ h ∈ hs.pinned :=
  List.contains_iff_mem

theorem isPinned_eq_false {h : Handle} : hs.isPinned h = false ↔ h ∉ hs.pinned := by
  rw [← isPinned_iff, Bool.not_eq_true]

theorem find?_without (hs : Handles) (gone : List Handle) (h : Handle) :
    (hs.without gone).find? h = if h ∈ gone then none else hs.find? h := by
  simp only [find?, without, List.find?_filter]
  split
  · rename_i hm
    refine List.find?_eq_none.mpr fun e _ he => ?_
    simp only [decide_eq_true_eq, decide_not] at he
    simp [he.2, hm] at he
  · rename_i hm
    congr 1
    funext e
    by_cases he : e.handle = h
    · simp [he, hm]
    · simp [he]

namespace Paired

variable (hp : hs.Paired)

include hp

theorem find?_eq_some {h : Handle} {e : Tracked} :
    hs.find? h = some e ↔ e ∈ hs.entries ∧ e.handle = h := by
  constructor
  · intro hf
    exact ⟨List.mem_of_find?_eq_some hf, by simpa using List.find?_some hf⟩
  · rintro ⟨he, rfl⟩
    cases hf : hs.find? e.handle with
    | none => simpa using List.find?_eq_none.mp hf e he
    | some d =>
      have hd : d.handle = e.handle := by simpa using List.find?_some hf
      rw [List.inj_on_of_nodup_map hp.handles (List.mem_of_find?_eq_some hf) he hd]

theorem object?_eq_some {h : Handle} {object : ObjectId} :
    hs.object? h = some object ↔ ∃ e ∈ hs.entries, e.handle = h ∧ e.object = object := by
  simp only [object?, Option.map_eq_some_iff, hp.find?_eq_some, and_assoc]

theorem handle?_eq_some {h : Handle} {object : ObjectId} :
    hs.handle? object = some h ↔ (object, h) ∈ hs.byObject := by
  rw [handle?, List.lookup_eq_some_iff]
  constructor
  · rintro ⟨before, after, hsplit, -⟩
    rw [hsplit]
    exact List.mem_append_right _ List.mem_cons_self
  · intro hm
    obtain ⟨before, after, hsplit⟩ := List.append_of_mem hm
    refine ⟨before, after, hsplit, fun p hp' => ?_⟩
    have hkeys := hp.objects
    rw [hsplit, List.map_append, List.map_cons] at hkeys
    have hne := (List.nodup_append.mp hkeys).2.2 p.1 (List.mem_map_of_mem hp') object (by simp)
    simpa using hne.symm

/-- Looking up by object and looking up by handle are inverse to each other. -/
theorem inverse {h : Handle} {object : ObjectId} :
    hs.object? h = some object ↔ hs.handle? object = some h := by
  rw [hp.object?_eq_some, hp.handle?_eq_some, hp.pairs]

theorem without (gone : List Handle) : (hs.without gone).Paired := by
  refine ⟨(List.filter_sublist.map _).nodup hp.handles,
    (List.filter_sublist.map _).nodup hp.objects, fun object h => ?_⟩
  simp only [Handles.without, List.mem_filter, hp.pairs, decide_eq_true_eq]
  constructor
  · rintro ⟨⟨e, he, rfl, ho⟩, hno⟩
    exact ⟨e, ⟨he, hno⟩, rfl, ho⟩
  · rintro ⟨e, ⟨he, hno⟩, rfl, ho⟩
    exact ⟨⟨e, he, rfl, ho⟩, hno⟩

theorem forget_eq (h : Handle) : hs.forget h = hs.without [h] := by
  unfold forget
  split
  · rename_i hf
    have hno : ∀ e ∈ hs.entries, e.handle ≠ h := fun e he => by
      simpa using List.find?_eq_none.mp hf e he
    have hentries : hs.entries.filter (·.handle ∉ [h]) = hs.entries :=
      List.filter_eq_self.mpr fun e he => by simpa using hno e he
    have hobjects : hs.byObject.filter (·.2 ∉ [h]) = hs.byObject := by
      refine List.filter_eq_self.mpr ?_
      rintro ⟨object, h'⟩ hm
      obtain ⟨e, he, rfl, -⟩ := (hp.pairs object h').mp hm
      simpa using hno e he
    rw [Handles.without, hentries, hobjects]
  · rename_i e hf
    obtain ⟨he, rfl⟩ := hp.find?_eq_some.mp hf
    -- The pair that names the handle is the one that names the object.
    have hobjects :
        hs.byObject.filter (·.1 ≠ e.object) = hs.byObject.filter (·.2 ∉ [e.handle]) := by
      refine List.filter_congr ?_
      rintro ⟨object, h'⟩ hm
      have hmine := (hp.pairs e.object e.handle).mpr ⟨e, he, rfl, rfl⟩
      have hiff : object = e.object ↔ h' = e.handle := by
        constructor
        · rintro rfl
          exact congrArg Prod.snd (List.inj_on_of_nodup_map hp.objects hm hmine rfl)
        · rintro rfl
          obtain ⟨d, hd, hdh, rfl⟩ := (hp.pairs object e.handle).mp hm
          rw [List.inj_on_of_nodup_map hp.handles hd he hdh]
      simp [hiff]
    rw [hobjects, Handles.without]
    simp

theorem forgetAll_eq (gone : List Handle) : hs.forgetAll gone = hs.without gone := by
  induction gone generalizing hs with
  | nil => simp [forgetAll, Handles.without]
  | cons h gone ih =>
    have hstep : hs.forgetAll (h :: gone) = (hs.forget h).forgetAll gone := rfl
    rw [hstep, hp.forget_eq, ih (hp.without [h])]
    simp only [Handles.without, List.filter_filter, List.mem_cons, List.not_mem_nil, or_false,
      not_or, Bool.decide_and, Bool.and_comm]

theorem adjust (h : Handle) {f : Tracked → Tracked} (hhandle : ∀ e, (f e).handle = e.handle)
    (hobject : ∀ e, (f e).object = e.object) : (hs.adjust h f).Paired := by
  have hhandle' (e : Tracked) : (if e.handle = h then f e else e).handle = e.handle := by
    split
    · exact hhandle e
    · rfl
  have hobject' (e : Tracked) : (if e.handle = h then f e else e).object = e.object := by
    split
    · exact hobject e
    · rfl
  refine ⟨?_, hp.objects, fun object h' => ?_⟩
  · simpa only [Handles.adjust, List.map_map, Function.comp_def, hhandle'] using hp.handles
  · simp only [Handles.adjust, hp.pairs, List.mem_map, exists_exists_and_eq_and, hhandle', hobject']

end Paired

theorem find?_adjust (hs : Handles) (h : Handle) {f : Tracked → Tracked}
    (hhandle : ∀ e, (f e).handle = e.handle) (h' : Handle) :
    (hs.adjust h f).find? h' = (hs.find? h').map fun e => if e.handle = h then f e else e := by
  have hkey : ((fun e : Tracked => decide (e.handle = h')) ∘
      fun e => if e.handle = h then f e else e) = fun e => decide (e.handle = h') := by
    funext e
    simp only [Function.comp_apply]
    split
    · rw [hhandle]
    · rfl
  simp only [find?, adjust, List.find?_map, hkey]

/-- Keeping objects, a change of what is known of handles is none for look-ups. -/
theorem object?_adjust (hs : Handles) (h : Handle) {f : Tracked → Tracked}
    (hhandle : ∀ e, (f e).handle = e.handle) (hobject : ∀ e, (f e).object = e.object)
    (h' : Handle) : (hs.adjust h f).object? h' = hs.object? h' := by
  have hkeep : (Tracked.object ∘ fun e => if e.handle = h then f e else e) = Tracked.object := by
    funext e
    simp only [Function.comp_apply]
    split
    · rw [hobject]
    · rfl
  rw [object?, find?_adjust hs h hhandle, Option.map_map, hkeep, object?]

/-! ### The queue -/

theorem perm_cons_filter {handles : List Handle} (hnodup : handles.Nodup) {h : Handle}
    (hm : h ∈ handles) : (h :: handles.filter (· ≠ h)).Perm handles := by
  have herase : handles.filter (· ≠ h) = handles.erase h := by
    rw [hnodup.erase_eq_filter]
    exact List.filter_congr fun h' _ => by simp [bne, beq_eq_decide]
  rw [herase]
  exact (List.perm_cons_erase hm).symm

/-- The table in which a pinned handle has joined the queue, before any goes. -/
def release (hs : Handles) (h : Handle) : Handles :=
  { hs with pinned := hs.pinned.filter (· ≠ h), queue := hs.queue ++ [h] }

namespace Filed

variable (hf : hs.Filed)

include hf

theorem nodup : (hs.pinned ++ hs.queue).Nodup :=
  hf.filed.nodup_iff.mpr hf.handles

/-- What is known of a handle may change. -/
theorem adjust (h : Handle) {f : Tracked → Tracked} (hhandle : ∀ e, (f e).handle = e.handle)
    (hobject : ∀ e, (f e).object = e.object) : (hs.adjust h f).Filed := by
  have hsame : (Tracked.handle ∘ fun e => if e.handle = h then f e else e) = Tracked.handle := by
    funext e
    simp only [Function.comp_apply]
    split
    · rw [hhandle]
    · rfl
  refine ⟨hf.toPaired.adjust h hhandle hobject, ?_⟩
  rw [Handles.adjust, List.map_map, hsame]
  exact hf.filed

theorem live_of_pinned {h : Handle} (hm : h ∈ hs.pinned) : hs.isLive h = true :=
  isLive_iff.mpr (hf.filed.subset (List.mem_append_left _ hm))

/-- A pinned handle may join the queue. -/
theorem released {h : Handle} (hm : h ∈ hs.pinned) : (hs.release h).Filed := by
  refine ⟨⟨hf.handles, hf.objects, hf.pairs⟩, ?_⟩
  have hnodup := List.Nodup.of_append_left hf.nodup
  refine List.Perm.trans ?_ hf.filed
  refine List.Perm.trans ?_ ((perm_cons_filter hnodup hm).append_right hs.queue)
  rw [release, ← List.append_assoc]
  exact List.perm_append_singleton h _

theorem unpin_eq {h : Handle} (hm : h ∈ hs.pinned) : hs.unpin h = (hs.release h).evict := by
  have hlive : ({ hs with pinned := hs.pinned.filter (· ≠ h) } : Handles).isLive h = true :=
    hf.live_of_pinned hm
  simp only [unpin, isPinned_iff.mpr hm, hlive, ↓reduceIte, release]

theorem not_pinned {h : Handle} (hm : h ∈ hs.queue) : h ∉ hs.pinned :=
  fun hp => (List.nodup_append.mp hf.nodup).2.2 h hp h hm rfl

/-- Handles at the front of the queue may go. -/
theorem without_front {gone rest : List Handle} (hsplit : hs.queue = gone ++ rest) :
    ({ hs.without gone with queue := rest } : Handles).Filed := by
  have hnodup := hf.nodup
  rw [hsplit, ← List.append_assoc] at hnodup
  have hapart := (List.nodup_append.mp hnodup).2.2
  refine ⟨⟨(hf.without gone).handles, (hf.without gone).objects, (hf.without gone).pairs⟩, ?_⟩
  have hkept : (hs.pinned ++ hs.queue).filter (· ∉ gone) = hs.pinned ++ rest := by
    have hpinned : hs.pinned.filter (· ∉ gone) = hs.pinned := by
      refine List.filter_eq_self.mpr fun h hm => ?_
      have hno : h ∉ gone := fun hg =>
        hf.not_pinned (hsplit ▸ List.mem_append_left _ hg) hm
      simpa using hno
    have hgone : gone.filter (· ∉ gone) = [] :=
      List.filter_eq_nil_iff.mpr fun h hm => by simpa using hm
    have hrest : rest.filter (· ∉ gone) = rest := by
      refine List.filter_eq_self.mpr fun h hm => ?_
      have hno : h ∉ gone := fun hg => hapart h (List.mem_append_right _ hg) h hm rfl
      simpa using hno
    rw [hsplit, List.filter_append, List.filter_append, hpinned, hgone, hrest, List.nil_append]
  have hperm := hf.filed.filter (· ∉ gone)
  rw [hkept, List.filter_map] at hperm
  exact hperm

/-- Eviction drops the front of the queue with its handles, as much of it as is too much. -/
theorem evict_eq : hs.evict =
    { hs.without (hs.queue.take (hs.queue.length - hs.limit)) with
      queue := hs.queue.drop (hs.queue.length - hs.limit) } := by
  have hfront : (hs.queue.take (hs.queue.length - hs.limit)).filter (fun h => !hs.isPinned h) =
      hs.queue.take (hs.queue.length - hs.limit) := by
    refine List.filter_eq_self.mpr fun h hm => ?_
    rw [Bool.not_eq_true', isPinned_eq_false]
    exact hf.not_pinned (List.mem_of_mem_take hm)
  rw [evict, hfront, hf.forgetAll_eq]

theorem evict : hs.evict.Filed := by
  rw [hf.evict_eq]
  exact hf.without_front (List.take_append_drop _ _).symm

theorem evict_bounded : hs.evict.queue.length ≤ hs.evict.limit := by
  rw [hf.evict_eq]
  simp only [List.length_drop, Handles.without]
  omega

end Filed

/-! ### New handles -/

/-- The numbers tried up to the one that is taken are those after the given one; all but the last
are in use, and the last is free unless there were no tries left. -/
theorem freeFrom_spec (hs : Handles) (tries : Nat) (n : UInt32) : ∃ k ≤ tries,
    hs.freeFrom tries n = (⟨Handle.after^[k] n⟩, Handle.after (Handle.after^[k] n)) ∧
    (∀ i < k, hs.isLive ⟨Handle.after^[i] n⟩ = true) ∧
    (k < tries → hs.isLive ⟨Handle.after^[k] n⟩ = false) := by
  induction tries generalizing n with
  | zero => exact ⟨0, Nat.le_refl 0, rfl, by simp, by simp⟩
  | succ tries ih =>
    cases hlive : hs.isLive ⟨n⟩ with
    | false => exact ⟨0, Nat.zero_le _, by simp [freeFrom, hlive], by simp, fun _ => hlive⟩
    | true =>
      obtain ⟨k, hk, hrun, hbefore, hlast⟩ := ih (Handle.after n)
      refine ⟨k + 1, Nat.succ_le_succ hk, ?_, ?_, ?_⟩
      · simp only [freeFrom, hlive, ↓reduceIte, hrun, Function.iterate_succ_apply]
      · rintro (_ | i) hi
        · exact hlive
        · exact hbefore i (Nat.lt_of_succ_lt_succ hi)
      · exact fun hlt => hlast (Nat.lt_of_succ_lt_succ hlt)

/-- While there are free numbers, one of them is found. -/
theorem freeFrom_free {n : UInt32} (hn : n ≠ 0) (hroom : hs.size < 4294967295) :
    hs.isLive (hs.freeFrom hs.entries.length n).1 = false ∧
      (hs.freeFrom hs.entries.length n).1.number ≠ 0 ∧
      (hs.freeFrom hs.entries.length n).2 ≠ 0 := by
  obtain ⟨k, hk, hrun, hbefore, hlast⟩ := hs.freeFrom_spec hs.entries.length n
  rw [hrun]
  refine ⟨?_, ?_, Handle.after_ne_zero _⟩
  · rcases Nat.lt_or_eq_of_le hk with hlt | rfl
    · exact hlast hlt
    -- Otherwise more numbers than there are live handles would be in use.
    · by_contra hlive
      rw [Bool.not_eq_false] at hlive
      let tried := (List.range (hs.entries.length + 1)).map fun i =>
        (⟨Handle.after^[i] n⟩ : Handle)
      have hnodup : tried.Nodup := by
        refine List.Nodup.map_on (fun i hi j hj he => ?_) List.nodup_range
        have hi := List.mem_range.mp hi
        have hj := List.mem_range.mp hj
        unfold size at hroom
        exact Handle.iterate_after_inj hn (by omega) (by omega) (congrArg Handle.number he)
      have hused : tried ⊆ hs.entries.map (·.handle) := by
        intro h hm
        obtain ⟨i, hi, rfl⟩ := List.mem_map.mp hm
        refine isLive_iff.mp ?_
        rcases Nat.lt_or_eq_of_le (Nat.le_of_lt_succ (List.mem_range.mp hi)) with hlt | rfl
        · exact hbefore i hlt
        · exact hlive
      have hle := (hnodup.subperm hused).length_le
      simp only [tried, List.length_map, List.length_range] at hle
      omega
  · intro hzero
    cases k with
    | zero => exact hn hzero
    | succ k =>
      rw [Function.iterate_succ_apply'] at hzero
      exact Handle.after_ne_zero _ hzero

/-- A new handle has a number that was free. Of the handles that were live, only some at the front
of the queue are gone, if need be the new one itself; the others are as they were. -/
structure Allocates (hs : Handles) (object : ObjectId) (type : String) (h : Handle)
    (hs' : Handles) : Prop where
  nonzero : h.number ≠ 0
  free : hs.isLive h = false
  pinned : hs'.pinned = hs.pinned
  others : ∃ gone, hs.queue ++ [h] = gone ++ hs'.queue ∧
    gone.length = hs.queue.length + 1 - hs.limit ∧
    ∀ h', hs'.find? h' = if h' ∈ gone then none
      else if h' = h then some ⟨h, object, type, false⟩ else hs.find? h'

/-- The table with a new handle, before any goes. -/
def enroll (hs : Handles) (e : Tracked) (next : UInt32) : Handles :=
  { hs with
    next
    byObject := hs.byObject ++ [(e.object, e.handle)]
    entries := hs.entries ++ [e]
    queue := hs.queue ++ [e.handle] }

theorem track_of_untracked {object : ObjectId} (hnew : hs.handle? object = none) (type : String) :
    let free := hs.freeFrom hs.entries.length hs.next
    hs.track object type = (free.1, (hs.enroll ⟨free.1, object, type, false⟩ free.2).evict) := by
  simp only [track, hnew, enroll]

theorem find?_enroll {e : Tracked} (hfree : hs.isLive e.handle = false) (next : UInt32)
    (h : Handle) : (hs.enroll e next).find? h = if h = e.handle then some e else hs.find? h := by
  simp only [find?, enroll, List.find?_append]
  by_cases he : h = e.handle
  · have hnone : hs.find? e.handle = none := by simpa [isLive] using hfree
    rw [find?] at hnone
    simp [he, hnone]
  · simp [he, Ne.symm he]

theorem not_mem_keys {object : ObjectId} (hnew : hs.handle? object = none) :
    object ∉ hs.byObject.map (·.1) := by
  intro hm
  obtain ⟨⟨o, h⟩, hp, rfl⟩ := List.mem_map.mp hm
  have hne := List.lookup_eq_none_iff.mp hnew (o, h) hp
  simp at hne

theorem Filed.enroll (hf : hs.Filed) {e : Tracked} (hfree : hs.isLive e.handle = false)
    (hnew : hs.handle? e.object = none) (next : UInt32) : (hs.enroll e next).Filed := by
  have hhandle : e.handle ∉ hs.entries.map (·.handle) := by
    rw [← isLive_iff, Bool.not_eq_true]
    exact hfree
  have hfresh {α : Type} {as : List α} {a : α} (has : as.Nodup) (ha : a ∉ as) :
      (as ++ [a]).Nodup :=
    List.nodup_append.mpr ⟨has, List.nodup_singleton a, fun b hb c hc hbc => ha
      (List.mem_singleton.mp hc ▸ hbc ▸ hb)⟩
  refine ⟨⟨?_, ?_, fun object h => ?_⟩, ?_⟩
  · rw [Handles.enroll, List.map_append]
    exact hfresh hf.handles hhandle
  · rw [Handles.enroll, List.map_append]
    exact hfresh hf.objects (not_mem_keys hnew)
  · simp only [Handles.enroll, List.mem_append, List.mem_singleton, hf.pairs, Prod.mk.injEq,
      or_and_right, exists_or, exists_eq_left]
    exact or_congr_right ⟨fun ⟨ho, hh⟩ => ⟨hh.symm, ho.symm⟩, fun ⟨hh, ho⟩ => ⟨ho.symm, hh.symm⟩⟩
  · rw [Handles.enroll, List.map_append, ← List.append_assoc]
    exact hf.filed.append_right _

namespace Consistent

variable (hc : hs.Consistent)

include hc

theorem track_allocates {object : ObjectId} (hnew : hs.handle? object = none) (type : String)
    (hroom : hs.size < 4294967295) :
    Allocates hs object type (hs.track object type).1 (hs.track object type).2 := by
  obtain ⟨hfree, hnonzero, -⟩ := freeFrom_free hc.counter hroom
  rw [track_of_untracked hnew]
  generalize hs.freeFrom hs.entries.length hs.next = free at hfree hnonzero
  have hfiled := hc.enroll (e := ⟨free.1, object, type, false⟩) hfree hnew free.2
  dsimp only
  rw [hfiled.evict_eq]
  refine ⟨hnonzero, hfree, rfl, _, (List.take_append_drop _ _).symm, ?_, fun h => ?_⟩
  · simp only [List.length_take, enroll, List.length_append, List.length_singleton]
    omega
  · have henroll := find?_enroll (e := ⟨free.1, object, type, false⟩) hfree free.2 h
    rw [← henroll]
    exact find?_without _ _ h

/-- Where the queue may hold a handle at all, one that was just given can be looked up. -/
theorem object?_track (object : ObjectId) (type : String) (hroom : hs.size < 4294967295)
    (hlimit : 1 ≤ hs.limit) :
    (hs.track object type).2.object? (hs.track object type).1 = some object := by
  cases hnew : hs.handle? object with
  | some h =>
    simp only [Handles.track, hnew]
    refine Eq.trans (object?_adjust hs h ?_ ?_ h) (hc.inverse.mpr hnew)
    · exact fun _ => rfl
    · exact fun _ => rfl
  | none =>
    have halloc := hc.track_allocates hnew type hroom
    obtain ⟨gone, hsplit, hlength, hfind⟩ := halloc.others
    -- It stands behind all that goes.
    have hkept : (hs.track object type).1 ∉ gone := by
      have hshort : gone.length ≤ hs.queue.length := by
        have hbounded := hc.bounded
        omega
      have hqueue : gone <+: hs.queue :=
        List.prefix_of_prefix_length_le ⟨_, hsplit.symm⟩ (List.prefix_append _ _) hshort
      intro hm
      have hlive := isLive_iff.mpr
        (hc.filed.subset (List.mem_append_right _ (hqueue.subset hm)))
      rw [halloc.free] at hlive
      exact Bool.false_ne_true hlive
    rw [object?, hfind, if_neg hkept, if_pos rfl]
    rfl

/-! ### Each act -/

theorem adjust (h : Handle) {f : Tracked → Tracked} (hhandle : ∀ e, (f e).handle = e.handle)
    (hobject : ∀ e, (f e).object = e.object) : (hs.adjust h f).Consistent :=
  ⟨hc.toFiled.adjust h hhandle hobject, hc.bounded, hc.counter⟩

theorem track (object : ObjectId) (type : String) (hroom : hs.size < 4294967295) :
    (hs.track object type).2.Consistent := by
  cases hnew : hs.handle? object with
  | some h =>
    simp only [Handles.track, hnew]
    exact hc.adjust h (fun _ => rfl) (fun _ => rfl)
  | none =>
    obtain ⟨hfree, -, hnext⟩ := freeFrom_free hc.counter hroom
    rw [track_of_untracked hnew]
    have hfiled := hc.enroll (e := ⟨_, object, type, false⟩) hfree hnew
      (hs.freeFrom hs.entries.length hs.next).2
    refine ⟨hfiled.evict, hfiled.evict_bounded, ?_⟩
    dsimp only
    rw [hfiled.evict_eq]
    exact hnext

theorem markInvalid (object : ObjectId) : (hs.markInvalid object).Consistent := by
  unfold Handles.markInvalid
  split
  · exact hc.adjust _ (fun _ => rfl) (fun _ => rfl)
  · exact hc

theorem pin (h : Handle) : (hs.pin h).Consistent := by
  unfold Handles.pin
  split
  · rename_i hguard
    rw [Bool.and_eq_true, Bool.not_eq_true', isPinned_eq_false] at hguard
    obtain ⟨hlive, hnot⟩ := hguard
    have hqueued : h ∈ hs.queue := by
      have hm := hc.filed.symm.subset (isLive_iff.mp hlive)
      exact (List.mem_append.mp hm).resolve_left hnot
    refine ⟨⟨⟨hc.handles, hc.objects, hc.pairs⟩, ?_⟩, ?_, hc.counter⟩
    -- The handle moves from the queue to the end of the pinned ones.
    · have hqueue := List.Nodup.of_append_right hc.nodup
      rw [List.append_assoc]
      exact ((perm_cons_filter hqueue hqueued).append_left hs.pinned).trans hc.filed
    · exact (List.length_filter_le _ _).trans hc.bounded
  · exact hc

theorem unpin (h : Handle) : (hs.unpin h).Consistent := by
  by_cases hm : h ∈ hs.pinned
  · rw [hc.unpin_eq hm]
    have hfiled := hc.released hm
    refine ⟨hfiled.evict, hfiled.evict_bounded, ?_⟩
    rw [hfiled.evict_eq]
    exact hc.counter
  · have hnot := isPinned_eq_false.mpr hm
    rw [Handles.unpin, hnot]
    exact hc

theorem clearUnpinned : hs.clearUnpinned.Consistent := by
  rw [Handles.clearUnpinned, hc.forgetAll_eq]
  exact ⟨hc.without_front (List.append_nil _).symm, Nat.zero_le _, hc.counter⟩

theorem perform (hroom : hs.size < 4294967295) (act : Act) : (hs.perform act).Consistent := by
  cases act with
  | track object type => exact hc.track object type hroom
  | pin h => exact hc.pin h
  | unpin h => exact hc.unpin h
  | markInvalid object => exact hc.markInvalid object
  | clearUnpinned => exact hc.clearUnpinned

theorem run {acts : List Act} (hroom : Roomy acts hs) : (Handles.run acts hs).Consistent := by
  induction acts generalizing hs with
  | nil => exact hc
  | cons act acts ih => exact ih (hc.perform hroom.head act) hroom.tail

end Consistent

theorem consistent_empty (limit : Nat) {next : UInt32} (hnext : next ≠ 0) :
    ({ limit, next } : Handles).Consistent :=
  ⟨⟨⟨List.nodup_nil, List.nodup_nil, fun _ _ => by simp⟩, List.Perm.nil⟩, Nat.zero_le _, hnext⟩

/-! ### Pinned handles -/

/-- The handle is pinned and has this object. -/
structure Keeps (hs : Handles) (h : Handle) (object : ObjectId) : Prop where
  pinned : h ∈ hs.pinned
  object : hs.object? h = some object

namespace Keeps

variable {h : Handle} {object : ObjectId} (hk : hs.Keeps h object)

include hk

/-- Only the front of the queue goes, and a pinned handle is not there. -/
theorem without_front (hf : hs.Filed) {gone rest : List Handle} (hsplit : hs.queue = gone ++ rest) :
    ({ hs.without gone with queue := rest } : Handles).Keeps h object := by
  have hno : h ∉ gone := fun hg => hf.not_pinned (hsplit ▸ List.mem_append_left _ hg) hk.pinned
  refine ⟨hk.pinned, ?_⟩
  have hfind := find?_without hs gone h
  rw [if_neg hno] at hfind
  have hobject := hk.object
  rw [object?, ← hfind] at hobject
  exact hobject

theorem evict (hf : hs.Filed) : hs.evict.Keeps h object := by
  rw [hf.evict_eq]
  exact hk.without_front hf (List.take_append_drop _ _).symm

theorem adjust (h' : Handle) {f : Tracked → Tracked} (hhandle : ∀ e, (f e).handle = e.handle)
    (hobject : ∀ e, (f e).object = e.object) : (hs.adjust h' f).Keeps h object :=
  ⟨hk.pinned, (object?_adjust hs h' hhandle hobject h).trans hk.object⟩

theorem enroll {e : Tracked} (hf : hs.Filed) (hfree : hs.isLive e.handle = false) (next : UInt32) :
    (hs.enroll e next).Keeps h object := by
  have hne : h ≠ e.handle := by
    rintro rfl
    rw [hf.live_of_pinned hk.pinned] at hfree
    exact Bool.false_ne_true hfree.symm
  refine ⟨hk.pinned, ?_⟩
  rw [object?, find?_enroll hfree, if_neg hne]
  exact hk.object

theorem track (hc : hs.Consistent) (object' : ObjectId) (type : String)
    (hroom : hs.size < 4294967295) : (hs.track object' type).2.Keeps h object := by
  cases hnew : hs.handle? object' with
  | some h' =>
    simp only [Handles.track, hnew]
    exact hk.adjust h' (fun _ => rfl) (fun _ => rfl)
  | none =>
    obtain ⟨hfree, -, -⟩ := freeFrom_free hc.counter hroom
    rw [track_of_untracked hnew]
    exact (hk.enroll hc.toFiled hfree _).evict (hc.enroll hfree hnew _)

theorem perform (hc : hs.Consistent) (hroom : hs.size < 4294967295) {act : Act}
    (hact : act ≠ .unpin h) : (hs.perform act).Keeps h object := by
  cases act with
  | track object' type => exact hk.track hc object' type hroom
  | pin h' =>
    simp only [Handles.perform, Handles.pin]
    split
    · exact ⟨List.mem_append_left _ hk.pinned, hk.object⟩
    · exact hk
  | unpin h' =>
    have hne : h ≠ h' := fun he => hact (he ▸ rfl)
    by_cases hm : h' ∈ hs.pinned
    · have hreleased : (hs.release h').Keeps h object :=
        ⟨List.mem_filter.mpr ⟨hk.pinned, by simpa using hne⟩, hk.object⟩
      rw [Handles.perform, hc.unpin_eq hm]
      exact hreleased.evict (hc.released hm)
    · rw [Handles.perform, Handles.unpin, isPinned_eq_false.mpr hm]
      exact hk
  | markInvalid object' =>
    simp only [Handles.perform, Handles.markInvalid]
    split
    · exact hk.adjust _ (fun _ => rfl) (fun _ => rfl)
    · exact hk
  | clearUnpinned =>
    rw [Handles.perform, Handles.clearUnpinned, hc.forgetAll_eq]
    exact hk.without_front hc.toFiled (List.append_nil _).symm

theorem run (hc : hs.Consistent) {acts : List Act} (hroom : Roomy acts hs)
    (hacts : .unpin h ∉ acts) : (Handles.run acts hs).Keeps h object := by
  induction acts generalizing hs with
  | nil => exact hk
  | cons act acts ih =>
    obtain ⟨hfirst, hrest⟩ := List.ne_and_not_mem_of_not_mem_cons hacts
    exact ih (hk.perform hc hroom.head hfirst.symm) (hc.perform hroom.head act) hroom.tail hrest

end Keeps

/-! ### The bound -/

@[simp]
theorem forget_limit (hs : Handles) (h : Handle) : (hs.forget h).limit = hs.limit := by
  unfold forget
  split <;> rfl

@[simp]
theorem forgetAll_limit (hs : Handles) (gone : List Handle) :
    (hs.forgetAll gone).limit = hs.limit := by
  induction gone generalizing hs with
  | nil => rfl
  | cons h gone ih => exact (ih (hs.forget h)).trans (forget_limit hs h)

@[simp]
theorem evict_limit (hs : Handles) : hs.evict.limit = hs.limit :=
  forgetAll_limit _ _

theorem perform_limit (hs : Handles) (act : Act) : (hs.perform act).limit = hs.limit := by
  cases act with
  | track object type =>
    simp only [perform, track]
    split
    · rfl
    · exact evict_limit _
  | pin h =>
    simp only [perform, pin]
    split <;> rfl
  | unpin h =>
    simp only [perform, unpin]
    split
    · split
      · exact evict_limit _
      · rfl
    · rfl
  | markInvalid object =>
    simp only [perform, markInvalid]
    split <;> rfl
  | clearUnpinned => exact forgetAll_limit _ _

theorem run_limit (acts : List Act) (hs : Handles) : (run acts hs).limit = hs.limit := by
  induction acts generalizing hs with
  | nil => rfl
  | cons act acts ih => exact (ih _).trans (perform_limit hs act)

/-- A table of handles is consistent after every run: looking up by object and looking up by handle
are inverse, a new handle is one that was free and leaves the others but the oldest ones alone, one
just given can be looked up unless none may be kept, and a pinned one keeps its object until it is
no longer pinned. The numbers may go round; there has to be a free one. -/
theorem table_consistent (limit : Nat) {next : UInt32} (hnext : next ≠ 0) {acts : List Act}
    (hroom : Roomy acts { limit, next }) :
    let hs := run acts { limit, next }
    (hs.Consistent ∧ hs.limit = limit) ∧
      (∀ h object, hs.object? h = some object ↔ hs.handle? object = some h) ∧
      (∀ object type, hs.size < 4294967295 →
        (hs.handle? object = none →
          Allocates hs object type (hs.track object type).1 (hs.track object type).2) ∧
        (1 ≤ limit →
          (hs.track object type).2.object? (hs.track object type).1 = some object)) ∧
      ∀ before after, acts = before ++ after → ∀ h object,
        (run before { limit, next }).Keeps h object → .unpin h ∉ after → hs.Keeps h object := by
  intro hs
  have hempty := consistent_empty limit hnext
  have hc : hs.Consistent := hempty.run hroom
  have hlimit : hs.limit = limit := run_limit acts _
  refine ⟨⟨hc, hlimit⟩, fun h object => hc.inverse, fun object type hsize => ⟨?_, ?_⟩, ?_⟩
  · exact fun hnew => hc.track_allocates hnew type hsize
  · exact fun hone => hc.object?_track object type hsize (hlimit ▸ hone)
  · rintro before after rfl h object hk hacts
    obtain ⟨hfront, hrest⟩ := hroom.append
    have hrun : hs = run after (run before { limit, next }) := run_append before after _
    rw [hrun]
    exact hk.run (hempty.run hfront) hrest hacts

/-- The numbers go round, past one that is pinned, and the queue is full. -/
theorem table_consistent_round :
    let acts : List Act :=
      [.track 10 "Point", .pin ⟨4294967295⟩, .track 20 "Point", .track 30 "Line", .markInvalid 10]
    let empty : Handles := { limit := 1, next := 4294967295 }
    Roomy acts empty ∧ (run acts empty).Consistent ∧
      (run acts empty).entries = [⟨⟨4294967295⟩, 10, "Point", true⟩, ⟨⟨2⟩, 30, "Line", false⟩] ∧
      (run acts empty).Keeps ⟨4294967295⟩ 10 ∧
      ((run acts empty).track 40 "Line").2.object? ((run acts empty).track 40 "Line").1 =
        some 40 := by
  intro acts empty
  have hroom : Roomy acts empty := by
    have hall : ∀ before ∈ acts.inits, (run before empty).size < 4294967295 := by decide +kernel
    exact fun before hbefore => hall before ((List.mem_inits before acts).mpr hbefore)
  have hsize : (run acts empty).size < 4294967295 := by decide +kernel
  obtain ⟨⟨hc, -⟩, -, hnew, hpinned⟩ := table_consistent 1 (by decide) hroom
  refine ⟨hroom, hc, by decide +kernel, ?_, (hnew 40 "Line" hsize).2 (Nat.le_refl 1)⟩
  refine hpinned (acts.take 2) (acts.drop 2) rfl ⟨4294967295⟩ 10 ⟨?_, ?_⟩ ?_
  · decide +kernel
  · decide +kernel
  · decide +kernel

end Handles

end Debugger
