import Debugger.Proofs.EvaluationFrame
import Debugger.Proofs.Lifetimes

/-!
What evaluating leaves behind in a target: new cells on the heap, missing types, and a longer log of
invocations. Everything that was there stays as it was.
-/

namespace Debugger

namespace Target

/-- New cells lie before the old ones and new types behind, records are logged behind the others and
belong to the thread. What is new takes its numbers from the counter, no two of them the same. -/
structure Adds (thread : ThreadId) (t t' : Target) : Prop where
  threads : t'.threads = t.threads
  requests : t'.requests = t.requests
  subscriptions : t'.subscriptions = t.subscriptions
  invocations : ∃ records, t'.invocations = t.invocations ++ records ∧
    ∀ r ∈ records, r.thread = thread
  lastId : t.lastId ≤ t'.lastId
  parts : ∃ cells entries, t'.heap = cells ++ t.heap ∧ t'.types = t.types ++ entries ∧
    (cells.map (·.1) ++ entries.flatMap TypeEntry.numbers).Nodup ∧
    ∀ n : Nat, n ∈ cells.map (·.1) ++ entries.flatMap TypeEntry.numbers →
      t.lastId < n ∧ n ≤ t'.lastId

/-- Nothing is made. -/
theorem Adds.of_same {thread : ThreadId} {t t' : Target} (hthreads : t'.threads = t.threads)
    (hrequests : t'.requests = t.requests) (hsubscriptions : t'.subscriptions = t.subscriptions)
    (hlast : t'.lastId = t.lastId) (hheap : t'.heap = t.heap) (htypes : t'.types = t.types)
    (hlog : ∃ records, t'.invocations = t.invocations ++ records ∧
      ∀ r ∈ records, r.thread = thread) : Adds thread t t' := by
  refine ⟨hthreads, hrequests, hsubscriptions, hlog, Nat.le_of_eq hlast.symm, [], [], hheap, ?_,
    List.nodup_nil, fun n hn => absurd hn List.not_mem_nil⟩
  rw [htypes, List.append_nil]

theorem unlogged (thread : ThreadId) (t : Target) : ∃ records,
    t.invocations = t.invocations ++ records ∧ ∀ r ∈ records, r.thread = thread :=
  ⟨[], (List.append_nil _).symm, fun _ hr => absurd hr List.not_mem_nil⟩

theorem Adds.refl (thread : ThreadId) (t : Target) : Adds thread t t :=
  .of_same rfl rfl rfl rfl rfl rfl (unlogged thread t)

theorem Adds.trans {thread : ThreadId} {t t' t'' : Target} (h : Adds thread t t')
    (h' : Adds thread t' t'') : Adds thread t t'' := by
  obtain ⟨cells, entries, hheap, htypes, hnodup, hrange⟩ := h.parts
  obtain ⟨cells', entries', hheap', htypes', hnodup', hrange'⟩ := h'.parts
  obtain ⟨records, hlog, hthread⟩ := h.invocations
  obtain ⟨records', hlog', hthread'⟩ := h'.invocations
  have hle := h.lastId
  have hle' := h'.lastId
  -- The numbers of the second step all come after those of the first.
  have hperm : ((cells' ++ cells).map (·.1) ++ (entries ++ entries').flatMap TypeEntry.numbers).Perm
      ((cells.map (·.1) ++ entries.flatMap TypeEntry.numbers) ++
        (cells'.map (·.1) ++ entries'.flatMap TypeEntry.numbers)) := by
    rw [List.map_append, List.flatMap_append]
    exact List.perm_iff_count.mpr fun n => by simp only [List.count_append]; omega
  refine ⟨h'.threads.trans h.threads, h'.requests.trans h.requests,
    h'.subscriptions.trans h.subscriptions, ⟨records ++ records', ?_, ?_⟩, Nat.le_trans hle hle',
    cells' ++ cells, entries ++ entries', ?_, ?_, ?_, ?_⟩
  · rw [hlog', hlog, List.append_assoc]
  · intro r hr
    rcases List.mem_append.mp hr with hr | hr
    · exact hthread r hr
    · exact hthread' r hr
  · rw [hheap', hheap, List.append_assoc]
  · rw [htypes', htypes, List.append_assoc]
  · refine hperm.nodup_iff.mpr (List.nodup_append.mpr ⟨hnodup, hnodup', fun a ha b hb => ?_⟩)
    exact Nat.ne_of_lt (Nat.lt_of_le_of_lt (hrange a ha).2 (hrange' b hb).1)
  · intro n hn
    rcases List.mem_append.mp (hperm.mem_iff.mp hn) with hn | hn
    · have := hrange n hn
      omega
    · have := hrange' n hn
      omega

theorem define_adds (thread : ThreadId) (t : Target) (spec : TypeSpec) (loaded : Bool) :
    Adds thread t (t.define spec loaded).2 := by
  have hlast : (t.define spec loaded).2.lastId = t.lastId + 1 + spec.methods.length := rfl
  have hnumbers := define_numbers t spec loaded
  obtain ⟨e, htypes⟩ : ∃ e, (t.define spec loaded).2.types = t.types ++ [e] := ⟨_, rfl⟩
  have he : [e].flatMap TypeEntry.numbers =
      List.range' (t.lastId + 1) (spec.methods.length + 1) := by
    rw [numbers, numbers, htypes, List.flatMap_append] at hnumbers
    exact List.append_cancel_left hnumbers
  refine ⟨rfl, rfl, rfl, unlogged thread t, by omega, [], [e], rfl, htypes, ?_, fun n hn => ?_⟩
  · rw [he]
    exact List.nodup_range'
  · rw [he] at hn
    have := List.mem_range'_1.mp hn
    omega

theorem allocate_adds (thread : ThreadId) (t : Target) (cell : HeapCell) :
    Adds thread t (t.allocate cell).2 := by
  have hlast : (t.allocate cell).2.lastId = t.lastId + 1 := rfl
  refine ⟨rfl, rfl, rfl, unlogged thread t, by omega, [(t.lastId + 1, cell)], [], rfl,
    (List.append_nil _).symm, List.nodup_singleton _, fun n hn => ?_⟩
  obtain rfl : n = t.lastId + 1 := by simpa using hn
  omega

theorem adds_admits (thread : ThreadId) (mayRun : Prop) : Admits (Adds thread) thread mayRun where
  refl := .refl thread
  trans := .trans
  ensureType t name := by
    unfold ensureType
    split
    · exact .refl thread t
    · exact define_adds thread t _ _
  allocate := allocate_adds thread
  log _ t record hthread := by
    refine .of_same rfl rfl rfl rfl rfl rfl ⟨[record], rfl, fun r hr => ?_⟩
    rw [List.mem_singleton.mp hr]
    exact hthread

/-! ### What was there -/

/-- A target that lived before, after an evaluation on the thread: what was there is as it was, and
what is new on the heap has ids that nothing ever had. -/
structure Keeps (acts : List Act) (thread : ThreadId) (t' : Target) : Prop where
  objects : ∀ {id cell}, (life acts).object? id = some cell → t'.object? id = some cell
  types : ∀ {id e}, (life acts).type? id = some e → t'.type? id = some e
  threads : t'.threads = (life acts).threads
  requests : t'.requests = (life acts).requests
  subscriptions : t'.subscriptions = (life acts).subscriptions
  invocations : ∃ records, t'.invocations = (life acts).invocations ++ records ∧
    ∀ r ∈ records, r.thread = thread
  fresh : ∃ cells, t'.heap = cells ++ (life acts).heap ∧ (cells.map (·.1)).Nodup ∧
    ∀ n ∈ cells.map (·.1), ∀ before after, acts = before ++ after → n ∉ (life before).ids

theorem Adds.type? {thread : ThreadId} {t t' : Target} (h : Adds thread t t') {id : TypeId}
    {e : TypeEntry} (he : t.type? id = some e) : t'.type? id = some e := by
  obtain ⟨-, entries, -, htypes, -⟩ := h.parts
  rw [Target.type?] at he
  rw [Target.type?, htypes, List.find?_append, he]
  rfl

/-- A new cell does not hide an old one, its id being a number that was still to come. -/
theorem Adds.object? {thread : ThreadId} {t t' : Target} (h : Adds thread t t') (hi : t.Issued)
    {id : ObjectId} {cell : HeapCell} (hc : t.object? id = some cell) :
    t'.object? id = some cell := by
  obtain ⟨cells, entries, hheap, -, -, hrange⟩ := h.parts
  have hmem : (id, cell) ∈ t.heap := by
    obtain ⟨front, back, hsplit, -⟩ := List.lookup_eq_some_iff.mp hc
    rw [hsplit]
    exact List.mem_append_right _ List.mem_cons_self
  have hold : id ≤ t.lastId := hi id (mem_ids.mpr (.inr (.inl (List.mem_map_of_mem hmem))))
  have hnew : cells.lookup id = none := by
    rw [List.lookup_eq_none_iff]
    intro c hc
    have hlater := (hrange c.1 (List.mem_append_left _ (List.mem_map_of_mem hc))).1
    exact bne_iff_ne.mpr (Nat.ne_of_lt (Nat.lt_of_le_of_lt hold hlater))
  rw [Target.object?] at hc
  rw [Target.object?, hheap, List.lookup_append, hnew, hc]
  rfl

theorem Adds.keeps {acts : List Act} {thread : ThreadId} {t' : Target}
    (h : Adds thread (life acts) t') : Keeps acts thread t' := by
  obtain ⟨cells, entries, hheap, -, hnodup, hrange⟩ := h.parts
  refine ⟨h.object? (life_issued acts), h.type?, h.threads, h.requests, h.subscriptions,
    h.invocations, cells, hheap, (List.nodup_append.mp hnodup).1, ?_⟩
  intro n hn before after hacts
  exact life_unused hacts (hrange n (List.mem_append_left _ hn)).1

end Target

/-! ### Evaluations -/

/-- The target of a link gains only what evaluating on the thread adds. -/
def Link.Gains (thread : ThreadId) (l l' : Link) : Prop :=
  l.target.Adds thread l'.target

theorem Link.gains_lasting (scope : Scope) : Lasting (Gains scope.thread) scope :=
  (Target.adds_admits scope.thread _).lasting (fun _ _ _ h => h) (fun _ => .refl _ _)
    Target.Adds.trans

/-- Evaluating an expression and showing what comes out keeps all that was in the target, whether it
succeeds or fails, whatever the settings are, and whichever calls fail. -/
theorem evaluation_keeps (acts : List Target.Act) (calls : Nat)
    (refuses : Nat → Call → Option Fault) (scope : Scope) (e : Syntax.Expr) :
    let l : Link := { target := Target.life acts, calls, refuses }
    Target.Keeps acts scope.thread (l.after (scope.run e)).target ∧
    Target.Keeps acts scope.thread (l.after (scope.run e >>= scope.display)).target ∧
    Target.Keeps acts scope.thread (l.after (scope.run e >>= scope.textOf)).target := by
  intro l
  have h := Link.gains_lasting scope
  refine ⟨?_, ?_, ?_⟩
  · exact Target.Adds.keeps (h.run e l)
  · exact Target.Adds.keeps (h.bind (h.run e) h.display l)
  · exact Target.Adds.keeps (h.bind (h.run e) h.textOf l)

end Debugger
