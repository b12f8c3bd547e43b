import Debugger.Proofs.Frame
import Debugger.Proofs.Requests

/-!
The life of a target: what happens to it and what its debugger asks of it, from its start on. No
number of its counter is ever given out twice.
-/

namespace Debugger

/-- The numbers that a thread takes from the common counter. -/
def Thread.numbers (th : Thread) : List Nat :=
  th.id :: th.frames.map (·.id)

namespace Target

/-- All numbers in use that come from the common counter. -/
def ids (t : Target) : List Nat :=
  t.numbers ++ t.heap.map (·.1) ++ t.threads.flatMap Thread.numbers

theorem mem_ids {t : Target} {n : Nat} : n ∈ t.ids ↔
    n ∈ t.numbers ∨ n ∈ t.heap.map (·.1) ∨ n ∈ t.threads.flatMap Thread.numbers := by
  rw [ids, List.mem_append, List.mem_append, or_assoc]

/-- The counter never goes back, and a number is in use that was so before or has just been given
out. -/
structure Grows (t t' : Target) : Prop where
  lastId : t.lastId ≤ t'.lastId
  ids : ∀ n ∈ t'.ids, n ∈ t.ids ∨ t.lastId < n ∧ n ≤ t'.lastId

theorem Grows.refl (t : Target) : t.Grows t :=
  ⟨Nat.le_refl _, fun _ => .inl⟩

theorem Grows.trans {t t' t'' : Target} (h : t.Grows t') (h' : t'.Grows t'') : t.Grows t'' := by
  refine ⟨Nat.le_trans h.lastId h'.lastId, fun n hn => ?_⟩
  rcases h'.ids n hn with hn | ⟨hlt, hle⟩
  · rcases h.ids n hn with hn | ⟨hlt, hle⟩
    · exact .inl hn
    · exact .inr ⟨hlt, Nat.le_trans hle h'.lastId⟩
  · exact .inr ⟨Nat.lt_of_le_of_lt h.lastId hlt, hle⟩

/-- No number in use is still to come. -/
def Issued (t : Target) : Prop :=
  ∀ n ∈ t.ids, n ≤ t.lastId

theorem Grows.issued {t t' : Target} (h : t.Grows t') (hi : t.Issued) : t'.Issued := by
  intro n hn
  rcases h.ids n hn with hn | ⟨-, hle⟩
  · exact Nat.le_trans (hi n hn) h.lastId
  · exact hle

/-! ### Steps -/

/-- Nothing is made that takes a number. -/
theorem Grows.of_subset {t t' : Target} (hlast : t.lastId ≤ t'.lastId)
    (hnumbers : t'.numbers ⊆ t.numbers) (hheap : t'.heap.map (·.1) ⊆ t.heap.map (·.1))
    (hthreads : t'.threads.flatMap Thread.numbers ⊆ t.threads.flatMap Thread.numbers) :
    t.Grows t' := by
  refine ⟨hlast, fun n hn => .inl ?_⟩
  rcases mem_ids.mp hn with hn | hn | hn
  · exact mem_ids.mpr (.inl (hnumbers hn))
  · exact mem_ids.mpr (.inr (.inl (hheap hn)))
  · exact mem_ids.mpr (.inr (.inr (hthreads hn)))

/-- Requests, logs and the connection take no numbers from this counter. -/
theorem Grows.of_same {t t' : Target} (hlast : t'.lastId = t.lastId) (htypes : t'.types = t.types)
    (hheap : t'.heap = t.heap) (hthreads : t'.threads = t.threads) : t.Grows t' := by
  refine .of_subset (Nat.le_of_eq hlast.symm) ?_ ?_ ?_
  · rw [numbers, numbers, htypes]
    exact List.Subset.refl _
  · rw [hheap]
    exact List.Subset.refl _
  · rw [hthreads]
    exact List.Subset.refl _

theorem define_grows (t : Target) (spec : TypeSpec) (loaded : Bool) :
    t.Grows (t.define spec loaded).2 := by
  have hlast : (t.define spec loaded).2.lastId = t.lastId + 1 + spec.methods.length := rfl
  refine ⟨by omega, fun n hn => ?_⟩
  rcases mem_ids.mp hn with hn | hn
  · rw [define_numbers] at hn
    rcases List.mem_append.mp hn with hn | hn
    · exact .inl (mem_ids.mpr (.inl hn))
    · have := List.mem_range'_1.mp hn
      exact .inr (by omega)
  · exact .inl (mem_ids.mpr (.inr hn))

theorem ensureType_grows (t : Target) (name : String) : t.Grows (t.ensureType name).2 := by
  unfold ensureType
  split
  · exact .refl t
  · exact define_grows ..

theorem allocate_grows (t : Target) (cell : HeapCell) : t.Grows (t.allocate cell).2 := by
  have hlast : (t.allocate cell).2.lastId = t.lastId + 1 := rfl
  refine ⟨by omega, fun n hn => ?_⟩
  rcases mem_ids.mp hn with hn | hn | hn
  · exact .inl (mem_ids.mpr (.inl hn))
  · rcases List.mem_cons.mp hn with rfl | hn
    · exact .inr ⟨Nat.lt_succ_self _, Nat.le_refl _⟩
    · exact .inl (mem_ids.mpr (.inr (.inl hn)))
  · exact .inl (mem_ids.mpr (.inr (.inr hn)))

theorem load_grows (t : Target) (id : TypeId) : t.Grows (t.load id) := by
  unfold load
  split
  · exact .refl t
  · rename_i e _
    have hmark (e : TypeEntry) :
        (if e.id = id then { e with loaded := true } else e).numbers = e.numbers := by
      split <;> rfl
    dsimp only
    have hgrows : t.Grows { t with
        types := t.types.map fun e => if e.id = id then { e with loaded := true } else e } := by
      refine .of_subset (Nat.le_refl _) ?_ (List.Subset.refl _) (List.Subset.refl _)
      simp only [numbers, List.flatMap_map, hmark]
      exact List.Subset.refl _
    split
    · exact hgrows.trans (.of_same rfl rfl rfl rfl)
    · exact hgrows

/-- A change of a thread may put one frame on it, with the next number. -/
theorem updateThread_grows (t : Target) (id : ThreadId) {f : Thread → Thread} {last : Nat}
    (hlast : t.lastId ≤ last)
    (hf : ∀ th, ∀ n ∈ (f th).numbers, n ∈ th.numbers ∨ t.lastId < n ∧ n ≤ last) :
    t.Grows ({ t with lastId := last }.updateThread id f) := by
  refine ⟨hlast, fun n hn => ?_⟩
  rcases mem_ids.mp hn with hn | hn | hn
  · exact .inl (mem_ids.mpr (.inl hn))
  · exact .inl (mem_ids.mpr (.inr (.inl hn)))
  · obtain ⟨th', hth', hn⟩ := List.mem_flatMap.mp hn
    obtain ⟨th, hth, rfl⟩ := List.mem_map.mp hth'
    have hold (hn : n ∈ th.numbers) : n ∈ t.ids :=
      mem_ids.mpr (.inr (.inr (List.mem_flatMap.mpr ⟨th, hth, hn⟩)))
    split at hn
    · exact (hf th n hn).imp_left hold
    · exact .inl (hold hn)

/-- A change of a thread that leaves its frames their numbers. -/
theorem adjustThread_grows (t : Target) (id : ThreadId) {f : Thread → Thread}
    (hf : ∀ th, (f th).numbers = th.numbers) : t.Grows (t.updateThread id f) :=
  updateThread_grows t id (Nat.le_refl _) fun th _ hn => .inl (hf th ▸ hn)

theorem updateFirst_map {α β : Type} (p : α → Bool) (f : α → α) (g : α → β)
    (hf : ∀ a, g (f a) = g a) (l : List α) : (updateFirst p f l).map g = l.map g := by
  induction l with
  | nil => rfl
  | cons a l ih =>
    unfold updateFirst
    split
    · rw [List.map_cons, List.map_cons, hf]
    · rw [List.map_cons, List.map_cons, ih]

theorem Change.grows (t : Target) (c : Change) : t.Grows (c.apply t) := by
  cases c with
  | define spec loaded => exact define_grows t spec loaded
  | load type => exact load_grows t type
  | newObject type fields => exact allocate_grows t _
  | newString text => exact allocate_grows t _
  | newArray element elements => exact (ensureType_grows t _).trans (allocate_grows _ _)
  | collect object =>
    exact .of_subset (Nat.le_refl _) (List.Subset.refl _)
      (List.map_subset _ (List.filter_subset_self _)) (List.Subset.refl _)
  | addThread =>
    refine ⟨Nat.le_succ _, fun n hn => ?_⟩
    rcases mem_ids.mp hn with hn | hn | hn
    · exact .inl (mem_ids.mpr (.inl hn))
    · exact .inl (mem_ids.mpr (.inr (.inl hn)))
    · rw [apply, Target.addThread, List.flatMap_append] at hn
      rcases List.mem_append.mp hn with hn | hn
      · exact .inl (mem_ids.mpr (.inr (.inr hn)))
      · obtain rfl : n = t.lastId + 1 := by simpa [Thread.numbers] using hn
        exact .inr ⟨Nat.lt_succ_self _, Nat.le_refl _⟩
  | pushFrame thread type this line locals =>
    refine updateThread_grows t thread (Nat.le_succ _) fun th n hn => ?_
    simp only [Thread.numbers, List.map_cons, List.mem_cons] at hn ⊢
    rcases hn with rfl | rfl | hn
    · exact .inl (.inl rfl)
    · exact .inr ⟨Nat.lt_succ_self _, Nat.le_refl _⟩
    · exact .inl (.inr hn)
  | setLocal thread frame name value =>
    refine adjustThread_grows t thread fun th => ?_
    exact congrArg (th.id :: ·) (updateFirst_map _ _ Frame.id (by exact fun _ => rfl) th.frames)
  | suspend thread => exact adjustThread_grows t thread fun _ => rfl
  | hit request thread =>
    have hs : t.Grows (t.suspend thread) := adjustThread_grows t thread fun _ => rfl
    simp only [apply, Target.hit]
    split
    · exact hs.trans (.of_same rfl rfl rfl rfl)
    · exact hs
  | emit event => exact .of_same rfl rfl rfl rfl
  | disconnect => exact .of_same rfl rfl rfl rfl

/-! ### Lives -/

/-- What happens to a target: a change of its own, or a call of a debugger that may change it. -/
inductive Act where
  | change (change : Change)
  | createRequest (location : Location)
  | setRequestEnabled (request : RequestId) (enabled : Bool)
  | deleteRequest (request : RequestId)
  | subscribeLoads (filter : String)
  | resume (thread : ThreadId)
  | objectType (object : ObjectId)
  | setField (object : ObjectId) (name : String) (value : Datum)
  | setElement (object : ObjectId) (index : Nat) (value : Datum)
  | wrapString (text : String)
  | invoke (thread : ThreadId) (receiver : Receiver) (method : MethodId) (args : List Datum)
  | construct (thread : ThreadId) (type : TypeId) (constructor : MethodId) (args : List Datum)

/-- A call that fails leaves the target as it is. -/
def settle (t : Target) (result : Except Fault Target) : Target :=
  result.toOption.getD t

def Act.apply (t : Target) : Act → Target
  | .change c => c.apply t
  | .createRequest location => t.settle ((·.2) <$> t.createRequest location)
  | .setRequestEnabled request enabled => t.settle (t.setRequestEnabled request enabled)
  | .deleteRequest request => t.settle (t.deleteRequest request)
  | .subscribeLoads filter => t.settle ((·.2) <$> t.subscribeLoads filter)
  | .resume thread => t.settle (t.resume thread)
  | .objectType object => t.settle ((·.2) <$> t.objectType object)
  | .setField object name value => t.settle (t.setField object name value)
  | .setElement object index value => t.settle (t.setElement object index value)
  | .wrapString text => t.settle ((·.2) <$> t.wrapString text)
  | .invoke thread receiver method args => (t.invoke thread receiver method args).2
  | .construct thread type constructor args => (t.construct thread type constructor args).2

/-- A target after all that has happened to it. -/
def life (acts : List Act) : Target :=
  acts.foldl Act.apply start

/-- What holds of a target holds after a call to it, if it holds after one that succeeds. -/
theorem settle_of {P : Target → Prop} {t : Target} {result : Except Fault Target} (h : P t)
    (hok : ∀ t', result = .ok t' → P t') : P (t.settle result) := by
  cases hr : result with
  | error fault => exact h
  | ok t' => exact hok t' hr

theorem settle_snd_of {P : Target → Prop} {α : Type} {t : Target}
    {result : Except Fault (α × Target)} (h : P t) (hok : ∀ a t', result = .ok (a, t') → P t') :
    P (t.settle ((·.2) <$> result)) := by
  refine settle_of h fun t' ht' => ?_
  cases hr : result with
  | error fault =>
    rw [hr] at ht'
    contradiction
  | ok p =>
    obtain ⟨a, t''⟩ := p
    rw [hr] at ht'
    cases ht'
    exact hok a _ hr

theorem settle_grows {t : Target} {result : Except Fault Target}
    (h : ∀ t', result = .ok t' → t.Grows t') : t.Grows (t.settle result) :=
  settle_of (.refl t) h

theorem settle_snd_grows {α : Type} {t : Target} {result : Except Fault (α × Target)}
    (h : ∀ a t', result = .ok (a, t') → t.Grows t') : t.Grows (t.settle ((·.2) <$> result)) :=
  settle_snd_of (.refl t) h

theorem deleteRequest_grows {t t' : Target} {request : RequestId}
    (h : t.deleteRequest request = .ok t') : t.Grows t' := by
  rcases deleteRequest_cases h with ⟨-, rfl⟩ | ⟨-, rfl⟩ <;> exact .of_same rfl rfl rfl rfl

theorem resume_grows {t t' : Target} {thread : ThreadId} (h : t.resume thread = .ok t') :
    t.Grows t' := by
  rw [resume_ok h]
  exact adjustThread_grows t thread fun _ => rfl

/-- Writing to a cell gives it no other id. -/
theorem setCell_grows (t : Target) (object : ObjectId) (cell : HeapCell) :
    t.Grows (t.setCell object cell) := by
  have hkeys : (t.setCell object cell).heap.map (·.1) = t.heap.map (·.1) := by
    rw [setCell, List.map_map]
    refine List.map_congr_left fun c _ => ?_
    rw [Function.comp_apply]
    split
    split <;> rfl
  refine .of_subset (Nat.le_refl _) (List.Subset.refl _) ?_ (List.Subset.refl _)
  rw [hkeys]
  exact List.Subset.refl _

theorem setField_grows {t t' : Target} {object : ObjectId} {name : String} {value : Datum}
    (h : t.setField object name value = .ok t') : t.Grows t' := by
  simp only [setField, bind, Except.bind] at h
  split at h
  · contradiction
  · split at h
    · cases h
      exact setCell_grows t _ _
    · contradiction

theorem setElement_grows {t t' : Target} {object : ObjectId} {index : Nat} {value : Datum}
    (h : t.setElement object index value = .ok t') : t.Grows t' := by
  simp only [setElement, bind, Except.bind] at h
  split at h
  · contradiction
  · split at h
    · cases h
      exact setCell_grows t _ _
    · contradiction

theorem Grows.admits (thread : ThreadId) : Admits Grows thread True where
  refl := .refl
  trans := .trans
  ensureType := ensureType_grows
  allocate := allocate_grows
  log _ _ _ _ := .of_same rfl rfl rfl rfl

theorem Act.grows (t : Target) (act : Act) : t.Grows (act.apply t) := by
  cases act with
  | change c => exact c.grows t
  | createRequest location =>
    refine settle_snd_grows fun id t' h => ?_
    rw [(createRequest_ok h).2]
    exact .of_same rfl rfl rfl rfl
  | setRequestEnabled request enabled =>
    refine settle_grows fun t' h => ?_
    rw [setRequestEnabled_ok h]
    exact .of_same rfl rfl rfl rfl
  | deleteRequest request => exact settle_grows fun t' => deleteRequest_grows
  | subscribeLoads filter =>
    refine settle_snd_grows fun id t' h => ?_
    rw [(subscribeLoads_ok h).1]
    exact .of_same rfl rfl rfl rfl
  | resume thread => exact settle_grows fun t' => resume_grows
  | objectType object => exact settle_snd_grows fun type t' => (Grows.admits 0).objectType
  | setField object name value => exact settle_grows fun t' => setField_grows
  | setElement object index value => exact settle_grows fun t' => setElement_grows
  | wrapString text => exact settle_snd_grows fun id t' => (Grows.admits 0).wrapString
  | invoke thread receiver method args => exact (Grows.admits thread).run trivial t _ method args
  | construct thread type constructor args =>
    exact (Grows.admits thread).construct trivial t type constructor args

theorem acts_grow (t : Target) (acts : List Act) : t.Grows (acts.foldl Act.apply t) := by
  induction acts generalizing t with
  | nil => exact .refl t
  | cons act acts ih => exact (act.grows t).trans (ih _)

theorem life_issued (acts : List Act) : (life acts).Issued := by
  have hempty : Issued {} := by
    intro n hn
    simp [ids, numbers] at hn
  have hstart : Grows {} start := by
    exact (((define_grows _ _ _).trans (define_grows _ _ _)).trans (define_grows _ _ _)).trans
      (define_grows _ _ _)
  exact (hstart.trans (acts_grow start acts)).issued hempty

/-- A number that is still to come was in use at no time before. -/
theorem life_unused {acts before after : List Act} (h : acts = before ++ after) {n : Nat}
    (hn : (life acts).lastId < n) : n ∉ (life before).ids := by
  intro hm
  have hlater : life acts = after.foldl Act.apply (life before) := by
    rw [h]
    exact List.foldl_append
  have hgrows : (life before).Grows (life acts) := by
    rw [hlater]
    exact acts_grow _ after
  have hle := life_issued before n hm
  have := hgrows.lastId
  omega

end Target

end Debugger
