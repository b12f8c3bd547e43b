import Debugger.Proofs.Hierarchy

/-!
The superclasses of a type, one above the other. The chain may come back to a type that it passed;
the lineage is what there is of it up to that point.
-/

namespace Debugger.Target

/-! ### The chain -/

/-- The type that stands `k` superclasses up, if the chain is as long as that. -/
def ancestor? (t : Target) (type : TypeId) : Nat → Option TypeId
  | 0 => some type
  | k + 1 => (t.ancestor? type k).bind t.superclass?

variable {t : Target} {type : TypeId}

theorem ancestor?_succ (t : Target) (type : TypeId) (k : Nat) :
    t.ancestor? type (k + 1) = (t.superclass? type).bind (t.ancestor? · k) := by
  induction k with
  | zero => cases h : t.superclass? type <;> simp [ancestor?, h]
  | succ k ih =>
    rw [ancestor?, ih]
    cases t.superclass? type <;> rfl

theorem superclass?_of_type {e : TypeEntry} (he : t.type? type = some e) :
    t.superclass? type = e.superclass.bind t.typeNamed? := by
  rw [superclass?, he]
  rfl

theorem type?_of_ancestor {e : TypeEntry} (he : t.type? type = some e) {k : Nat} {above : TypeId}
    (h : t.ancestor? type k = some above) : ∃ d, t.type? above = some d := by
  cases k with
  | zero =>
    cases h
    exact ⟨e, he⟩
  | succ k =>
    obtain ⟨below, -, hsuper⟩ := Option.bind_eq_some_iff.mp h
    obtain ⟨d, -, hnamed⟩ := Option.bind_eq_some_iff.mp hsuper
    obtain ⟨name, -, hname⟩ := Option.bind_eq_some_iff.mp hnamed
    exact type?_of_name hname

/-- Below a type of the chain the chain has no gap. -/
theorem ancestor?_below {j k : Nat} {above : TypeId} (h : t.ancestor? type k = some above)
    (hj : j ≤ k) : ∃ below, t.ancestor? type j = some below := by
  induction k generalizing above with
  | zero =>
    obtain rfl := Nat.le_zero.mp hj
    exact ⟨above, h⟩
  | succ k ih =>
    rcases Nat.le_succ_iff.mp hj with hle | rfl
    · obtain ⟨below, hbelow, -⟩ := Option.bind_eq_some_iff.mp h
      exact ih hbelow hle
    · exact ⟨above, h⟩

/-! ### The lineage -/

theorem lineageFrom_new {n : Nat} {seen : List TypeId} (h : type ∉ seen) :
    t.lineageFrom (n + 1) seen type =
      type :: (t.superclass? type).elim [] (t.lineageFrom n (type :: seen)) := by
  rw [lineageFrom, if_neg h]
  cases t.superclass? type <;> rfl

theorem ancestor?_of_lineageFrom {n : Nat} {seen : List TypeId} {k : Nat} {above : TypeId}
    (h : (t.lineageFrom n seen type)[k]? = some above) : t.ancestor? type k = some above := by
  induction n generalizing seen type k with
  | zero => simp [lineageFrom] at h
  | succ n ih =>
    by_cases hseen : type ∈ seen
    · simp [lineageFrom, hseen] at h
    · rw [lineageFrom_new hseen] at h
      cases k with
      | zero => exact h
      | succ k =>
        rw [List.getElem?_cons_succ] at h
        rw [ancestor?_succ]
        cases hparent : t.superclass? type with
        | none => simp [hparent] at h
        | some parent =>
          rw [hparent] at h
          exact ih h

theorem lineageFrom_fresh {n : Nat} {seen : List TypeId} :
    ∀ above ∈ t.lineageFrom n seen type, above ∉ seen := by
  induction n generalizing seen type with
  | zero => exact fun _ hm => absurd hm List.not_mem_nil
  | succ n ih =>
    by_cases hseen : type ∈ seen
    · simp [lineageFrom, hseen]
    · rw [lineageFrom_new hseen]
      intro above hm
      rcases List.mem_cons.mp hm with rfl | hm
      · exact hseen
      · cases hparent : t.superclass? type with
        | none =>
          rw [hparent] at hm
          contradiction
        | some parent =>
          rw [hparent] at hm
          exact fun hold => ih above hm (List.mem_cons_of_mem _ hold)

theorem lineageFrom_nodup {n : Nat} {seen : List TypeId} : (t.lineageFrom n seen type).Nodup := by
  induction n generalizing seen type with
  | zero => exact List.nodup_nil
  | succ n ih =>
    by_cases hseen : type ∈ seen
    · simp [lineageFrom, hseen]
    · rw [lineageFrom_new hseen]
      cases t.superclass? type with
      | none => exact List.nodup_singleton type
      | some parent =>
        refine List.nodup_cons.mpr ⟨fun hm => ?_, ih⟩
        exact lineageFrom_fresh _ hm List.mem_cons_self

theorem mem_lineageFrom_succ (t : Target) (n : Nat) (seen : List TypeId) (type : TypeId) :
    type ∈ seen ∨ type ∈ t.lineageFrom (n + 1) seen type := by
  by_cases hseen : type ∈ seen
  · exact .inl hseen
  · rw [lineageFrom_new hseen]
    exact .inr List.mem_cons_self

/-- A walk that has steps left over stopped for want of a superclass that it had not passed. -/
theorem lineageFrom_closed {n : Nat} {seen : List TypeId}
    (hn : (t.lineageFrom n seen type).length < n) {below parent : TypeId}
    (hm : below ∈ t.lineageFrom n seen type) (hparent : t.superclass? below = some parent) :
    parent ∈ seen ∨ parent ∈ t.lineageFrom n seen type := by
  induction n generalizing seen type with
  | zero => contradiction
  | succ n ih =>
    by_cases hseen : type ∈ seen
    · rw [lineageFrom, if_pos hseen] at hm
      contradiction
    · rw [lineageFrom_new hseen] at hn hm ⊢
      have hrest : parent ∈ type :: seen ∨
          parent ∈ (t.superclass? type).elim [] (t.lineageFrom n (type :: seen)) := by
        rcases List.mem_cons.mp hm with rfl | hm
        · rw [hparent] at hn ⊢
          cases n with
          | zero => simp [lineageFrom] at hn
          | succ n => exact mem_lineageFrom_succ t n _ parent
        · cases hnext : t.superclass? type with
          | none =>
            rw [hnext] at hm
            contradiction
          | some next =>
            rw [hnext] at hn hm
            exact ih (Nat.lt_of_succ_lt_succ hn) hm
      rcases hrest with hmem | hmem
      · rcases List.mem_cons.mp hmem with rfl | hmem
        · exact .inr List.mem_cons_self
        · exact .inl hmem
      · exact .inr (List.mem_cons_of_mem _ hmem)

/-- As far as the lineage goes the chain meets no type twice. -/
theorem ancestor?_ne {i j : Nat} (hj : j < (t.lineage type).length) (hi : i < j) :
    t.ancestor? type i ≠ t.ancestor? type j := by
  have hat {k : Nat} (hk : k < (t.lineage type).length) :
      t.ancestor? type k = (t.lineage type)[k]? := by
    rw [List.getElem?_eq_getElem hk]
    exact ancestor?_of_lineageFrom (List.getElem?_eq_getElem hk)
  have hi' : i < (t.lineage type).length := Nat.lt_trans hi hj
  rw [hat hi', hat hj]
  intro hsame
  exact absurd ((List.getElem?_inj hi' lineageFrom_nodup).mp hsame) (Nat.ne_of_lt hi)

section

variable {e : TypeEntry} (he : t.type? type = some e)

include he

theorem length_lineage_le : (t.lineage type).length ≤ t.types.length := by
  have hsub : t.lineage type ⊆ t.types.map (·.id) := by
    intro above hm
    obtain ⟨k, hk⟩ := List.getElem?_of_mem hm
    obtain ⟨d, hd⟩ := type?_of_ancestor he (ancestor?_of_lineageFrom hk)
    obtain ⟨hmem, rfl⟩ := mem_of_type? hd
    exact List.mem_map_of_mem hmem
  have hle := lineageFrom_nodup.length_le_of_subset hsub
  rwa [List.length_map] at hle

theorem mem_lineage {k : Nat} {above : TypeId} (h : t.ancestor? type k = some above) :
    above ∈ t.lineage type := by
  have hroom : (t.lineage type).length < t.types.length + 1 :=
    Nat.lt_succ_of_le (length_lineage_le he)
  induction k generalizing above with
  | zero =>
    cases h
    exact (mem_lineageFrom_succ t _ [] type).resolve_left List.not_mem_nil
  | succ k ih =>
    obtain ⟨below, hbelow, hparent⟩ := Option.bind_eq_some_iff.mp h
    exact (lineageFrom_closed hroom (ih hbelow) hparent).resolve_left List.not_mem_nil

/-- The lineage has each type of the chain in the place where the chain comes to it first. -/
theorem getElem?_lineage {k : Nat} {above : TypeId} :
    (t.lineage type)[k]? = some above ↔
      t.ancestor? type k = some above ∧ ∀ j < k, t.ancestor? type j ≠ some above := by
  have hfirst {k : Nat} (hk : (t.lineage type)[k]? = some above) :
      t.ancestor? type k = some above ∧ ∀ j < k, t.ancestor? type j ≠ some above := by
    obtain ⟨hlt, -⟩ := List.getElem?_eq_some_iff.mp hk
    have hat := ancestor?_of_lineageFrom hk
    exact ⟨hat, fun j hj => hat ▸ ancestor?_ne hlt hj⟩
  refine ⟨hfirst, fun ⟨hk, hleast⟩ => ?_⟩
  obtain ⟨i, hi⟩ := List.getElem?_of_mem (mem_lineage he hk)
  obtain ⟨hi', hleast'⟩ := hfirst hi
  rcases Nat.lt_trichotomy i k with hlt | rfl | hlt
  · exact absurd hi' (hleast i hlt)
  · exact hi
  · exact absurd hk (hleast' k hlt)

theorem lineage_cons : t.lineage type = type :: (t.lineage type).tail := by
  have hhead : (t.lineage type)[0]? = some type :=
    (getElem?_lineage he).mpr ⟨rfl, fun j hj => absurd hj (Nat.not_lt_zero j)⟩
  cases hl : t.lineage type with
  | nil =>
    rw [hl] at hhead
    contradiction
  | cons first rest =>
    rw [hl] at hhead
    cases hhead
    rfl

/-- A type of the chain is in the lineage, no further up. -/
theorem lineage_of_ancestor {k : Nat} {above : TypeId} (h : t.ancestor? type k = some above) :
    ∃ i ≤ k, (t.lineage type)[i]? = some above := by
  obtain ⟨i, hi⟩ := List.getElem?_of_mem (mem_lineage he h)
  refine ⟨i, Nat.le_of_not_lt fun hlt => ?_, hi⟩
  exact ((getElem?_lineage he).mp hi).2 k hlt h

end

end Debugger.Target
