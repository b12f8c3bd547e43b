import Debugger.Proofs.Calls
import Debugger.Proofs.Integers

/-!
Ranges denote arithmetic progressions over the unbounded integers, and words of twice the width are
wide enough to tell what is in one. The one exception is a range that leaves out the least `long` as
its end: there is nothing before that number, so it stays in.
-/

namespace Debugger

open Syntax

/-- The numbers that a range stands for, from `a` towards `b` at distances of `s`. -/
def Syntax.RangeKind.Denotes (kind : RangeKind) (a b s v : Int) : Prop :=
  match kind with
  | .closed => (∃ k : Nat, v = a + k * s) ∧ v ≤ b
  | .until => (∃ k : Nat, v = a + k * s) ∧ v < b
  | .downTo => (∃ k : Nat, v = a - k * s) ∧ b ≤ v

/-! ### Integers at a distance -/

theorem exists_steps_up {a s : Int} (hs : 0 < s) (v : Int) :
    (∃ k : Nat, v = a + k * s) ↔ a ≤ v ∧ s ∣ v - a := by
  constructor
  · rintro ⟨k, rfl⟩
    have hk : 0 ≤ (k : Int) * s := Int.mul_nonneg (Int.natCast_nonneg k) (Int.le_of_lt hs)
    refine ⟨by omega, k, ?_⟩
    rw [Int.mul_comm s k]
    omega
  · rintro ⟨hle, k, hk⟩
    have hk0 : 0 ≤ k := Int.nonneg_of_mul_nonneg_right (a := s) (by omega) hs
    refine ⟨k.toNat, ?_⟩
    rw [Int.toNat_of_nonneg hk0, Int.mul_comm]
    omega

theorem exists_steps_down {a s : Int} (hs : 0 < s) (v : Int) :
    (∃ k : Nat, v = a - k * s) ↔ v ≤ a ∧ s ∣ v - a := by
  have hup := exists_steps_up (a := -a) hs (-v)
  have hneg : -v - -a = -(v - a) := by omega
  rw [hneg, Int.dvd_neg, Int.neg_le_neg_iff] at hup
  rw [← hup]
  refine exists_congr fun k => ?_
  omega

/-! ### Progressions -/

namespace Progression

/-- Membership in a progression that goes up. -/
theorem contains_up {r : Progression} (hs : 0 < r.step.toInt) (v : Int64) :
    r.contains v = true ↔
      (∃ k : Nat, v.toInt = r.first.toInt + k * r.step.toInt) ∧ v.toInt ≤ r.last.toInt := by
  have hup : 0 < r.step := Int64.lt_iff_toInt_lt.mpr hs
  rw [exists_steps_up hs]
  simp only [contains, hup, ↓reduceIte, Bool.and_eq_true, decide_eq_true_eq,
    Int64.le_iff_toInt_le, ← Int.dvd_iff_tmod_eq_zero]
  tauto

/-- Membership in a progression that goes down. -/
theorem contains_down {r : Progression} {s : Int} (hs : 0 < s) (hstep : r.step.toInt = -s)
    (v : Int64) :
    r.contains v = true ↔
      (∃ k : Nat, v.toInt = r.first.toInt - k * s) ∧ r.last.toInt ≤ v.toInt := by
  have hdown : ¬ 0 < r.step := by
    rw [Int64.lt_iff_toInt_lt, hstep]
    exact fun h => absurd h (by change ¬ 0 < -s; omega)
  rw [exists_steps_down hs]
  simp only [contains, hdown, ↓reduceIte, Bool.and_eq_true, decide_eq_true_eq,
    Int64.le_iff_toInt_le, ← Int.dvd_iff_tmod_eq_zero, hstep, Int.neg_dvd]
  tauto

/-! ### Words of 128 bits -/

/-- A number in a word of twice the width. -/
def wide (v : Int64) : BitVec 128 :=
  v.toBitVec.signExtend 128

/-- The distance of a number from the first one. -/
def wideOffset (r : Progression) (v : Int64) : BitVec 128 :=
  wide v - wide r.first

/-- Membership as it is told in words of twice the width. -/
def wideContains (r : Progression) (v : Int64) : Bool :=
  let inBounds :=
    if 0 < r.step then r.first ≤ v && v ≤ r.last else v ≤ r.first && r.last ≤ v
  inBounds && (r.wideOffset v).srem (wide r.step) = 0

theorem toInt_wide (v : Int64) : (wide v).toInt = v.toInt :=
  BitVec.toInt_signExtend_of_le (by decide)

theorem wide_ne_zero {v : Int64} (hv : v ≠ 0) : wide v ≠ 0 := by
  intro h
  have hzero : v.toInt = (0 : Int64).toInt := by
    rw [← toInt_wide v, h]
    rfl
  exact hv (Int64.toInt_inj.mp hzero)

/-- Two numbers are less than 2⁶⁴ apart. -/
theorem offset_bounds (v w : Int64) :
    -2 ^ 64 < v.toInt - w.toInt ∧ v.toInt - w.toInt < 2 ^ 64 := by
  have hv := v.minValue_le_toInt
  have hw := w.minValue_le_toInt
  have hv' := v.toInt_lt
  have hw' := w.toInt_lt
  rw [Int64.toInt_minValue] at hv hw
  omega

theorem offset_fits (r : Progression) (v : Int64) :
    (wide v).ssubOverflow (wide r.first) = false := by
  obtain ⟨hlow, hhigh⟩ := offset_bounds v r.first
  simp only [BitVec.ssubOverflow, toInt_wide, ge_iff_le, Bool.or_eq_false_iff,
    decide_eq_false_iff_not]
  omega

theorem toInt_wideOffset (r : Progression) (v : Int64) :
    (r.wideOffset v).toInt = v.toInt - r.first.toInt := by
  rw [wideOffset, BitVec.toInt_sub_of_not_ssubOverflow (by simp [r.offset_fits v]), toInt_wide,
    toInt_wide]

/-- A quotient is no farther from zero than what was divided. -/
theorem remainder_fits (r : Progression) (v : Int64) :
    (r.wideOffset v).sdivOverflow (wide r.step) = false := by
  obtain ⟨hlow, hhigh⟩ := offset_bounds v r.first
  have hquotient := Int.natAbs_ediv_le_natAbs (v.toInt - r.first.toInt) r.step.toInt
  simp only [BitVec.sdivOverflow, toInt_wideOffset, toInt_wide, Bool.or_eq_false_iff,
    decide_eq_false_iff_not]
  omega

theorem wideContains_eq (r : Progression) (v : Int64) : r.wideContains v = r.contains v := by
  have hrem : (r.wideOffset v).srem (wide r.step) = 0 ↔
      (v.toInt - r.first.toInt).tmod r.step.toInt = 0 := by
    rw [← BitVec.toInt_inj, BitVec.toInt_srem, toInt_wideOffset, toInt_wide]
    rfl
  simp only [wideContains, contains, hrem]

/-! ### All numbers -/

/-- In either direction, the step having one. -/
theorem contains_iff {r : Progression} (hstep : r.step ≠ 0) (v : Int64) :
    r.contains v = true ↔ ∃ k : Nat, v.toInt = r.first.toInt + k * r.step.toInt ∧
      (0 < r.step.toInt → v.toInt ≤ r.last.toInt) ∧
      (r.step.toInt < 0 → r.last.toInt ≤ v.toInt) := by
  have hne : r.step.toInt ≠ 0 := fun h => hstep (Int64.toInt_inj.mp h)
  rcases Int.lt_or_gt_of_ne hne with hdown | hup
  · have hpos : 0 < -r.step.toInt := by omega
    have hnot : ¬ 0 < r.step.toInt := by omega
    rw [contains_down hpos (Int.neg_neg _).symm, ← exists_and_right]
    simp only [hdown, hnot, Int.mul_neg, Int.sub_neg, false_implies, true_implies, true_and]
  · have hnot : ¬ r.step.toInt < 0 := by omega
    rw [contains_up hup, ← exists_and_right]
    simp only [hup, hnot, false_implies, true_implies, and_true]

/-- The first number is in, unless none is. -/
theorem contains_first {r : Progression} (h : r.isEmpty = false) : r.contains r.first = true := by
  simp only [isEmpty] at h
  simp only [contains, Int.sub_self, Int.zero_tmod, decide_true, Bool.and_true]
  split at h
  · rename_i hup
    simpa [hup] using h
  · rename_i hdown
    simpa [hdown] using h

theorem isEmpty_of_contains {r : Progression} {v : Int64} (h : r.contains v = true) :
    r.isEmpty = false := by
  simp only [contains, Bool.and_eq_true] at h
  obtain ⟨hbounds, -⟩ := h
  simp only [isEmpty]
  split at hbounds
  · rename_i hup
    obtain ⟨hfirst, hlast⟩ : r.first ≤ v ∧ v ≤ r.last := by simpa using hbounds
    simpa [hup] using Int64.le_trans hfirst hlast
  · rename_i hdown
    obtain ⟨hfirst, hlast⟩ : v ≤ r.first ∧ r.last ≤ v := by simpa using hbounds
    simpa [hdown] using Int64.le_trans hlast hfirst

/-- A progression contains the numbers that whole steps lead to from the first one, as far as the
last one, over the unbounded integers. Words of 128 bits hold all that is computed, and come to the
same. A progression is empty just if it contains no number. -/
theorem contains_terms (r : Progression) (hstep : r.step ≠ 0) :
    (∀ v, r.contains v = true ↔ ∃ k : Nat, v.toInt = r.first.toInt + k * r.step.toInt ∧
      (0 < r.step.toInt → v.toInt ≤ r.last.toInt) ∧
      (r.step.toInt < 0 → r.last.toInt ≤ v.toInt)) ∧
    (∀ v, (wide v).ssubOverflow (wide r.first) = false ∧ wide r.step ≠ 0 ∧
      (r.wideOffset v).sdivOverflow (wide r.step) = false ∧ r.wideContains v = r.contains v) ∧
    (r.isEmpty = true ↔ ∀ v, r.contains v = false) := by
  refine ⟨contains_iff hstep, fun v => ?_, fun h v => ?_, fun h => ?_⟩
  · exact ⟨r.offset_fits v, wide_ne_zero hstep, r.remainder_fits v, r.wideContains_eq v⟩
  · by_contra hv
    have hsome := isEmpty_of_contains (Bool.eq_true_of_not_eq_false hv)
    exact Bool.false_ne_true (hsome.symm.trans h)
  · by_contra hsome
    have hfirst := contains_first (Bool.eq_false_of_not_eq_true hsome)
    exact Bool.false_ne_true ((h r.first).symm.trans hfirst)

/-- From the greatest `long` down to the least, in steps as long as a `long` can tell: minus one is
the second number and the last. -/
theorem contains_terms_down :
    let r : Progression := ⟨Int64.maxValue, Int64.minValue, Int64.minValue, true⟩
    r.step ≠ 0 ∧ r.contains (-1) = true ∧ r.contains Int64.minValue = false ∧
      r.isEmpty = false := by
  intro r
  have hstep : r.step ≠ 0 := by decide
  obtain ⟨hterms, -, hempty⟩ := contains_terms r hstep
  have hsecond : r.contains (-1) = true := (hterms (-1)).mpr ⟨1, by decide, by decide, by decide⟩
  refine ⟨hstep, hsecond, ?_, ?_⟩
  · by_contra hleast
    obtain ⟨k, hk, -⟩ := (hterms _).mp (Bool.eq_true_of_not_eq_false hleast)
    have hvalues : Int64.minValue.toInt = Int64.maxValue.toInt + k * Int64.minValue.toInt := hk
    rw [Int64.toInt_minValue, Int64.toInt_maxValue] at hvalues
    omega
  · by_contra hnone
    have hnone := hempty.mp (Bool.eq_true_of_not_eq_false hnone) (-1)
    exact Bool.false_ne_true (hnone.symm.trans hsecond)

end Progression

/-! ### The least `long` -/

theorem toInt_neg_of_pos {s : Int64} (hs : 0 < s.toInt) : (-s).toInt = -s.toInt := by
  have hlt := s.toInt_lt
  rw [Int64.toInt_neg, Int.bmod_eq_of_le] <;> omega

namespace Scope

theorem before_least : before Int64.minValue = Int64.minValue := rfl

theorem toInt_before {v : Int64} (hv : v ≠ Int64.minValue) : (before v).toInt = v.toInt - 1 := by
  have hle := v.minValue_le_toInt
  have hne : v.toInt ≠ Int64.minValue.toInt := fun h => hv (Int64.toInt_inj.mp h)
  have hlt := v.toInt_lt
  rw [Int64.toInt_minValue] at hle hne
  rw [before, if_neg hv, Int64.toInt_sub, Int64.toInt_one, Int.bmod_eq_of_le] <;> omega

theorem makeRange_notPositive (kind : RangeKind) (first last : Int64) {step : Int64}
    (hs : step.toInt ≤ 0) (long : Bool) :
    makeRange kind first last step long = throw (.typeMismatch (.stepNotPositive step.toInt)) := by
  have hle : step ≤ 0 := Int64.le_iff_toInt_le.mpr hs
  simp only [makeRange, hle, ↓reduceIte]
  rfl

/-- Which numbers the range of a kind has, given its bounds and its step as they were read. -/
theorem makeRange_contains (kind : RangeKind) (first last : Int64) {step : Int64}
    (hs : 0 < step.toInt) (long : Bool) :
    ∃ r, makeRange kind first last step long = pure (.range r) ∧ ∀ v : Int64,
      (r.contains v = true ↔ kind.Denotes first.toInt last.toInt step.toInt v.toInt ∨
        kind = .until ∧ last = Int64.minValue ∧ first = last ∧ v = last) := by
  have hpos : ¬ step ≤ 0 := by
    rw [Int64.le_iff_toInt_le]
    exact Int.not_le.mpr hs
  have hmake : makeRange kind first last step long = pure (.range (match kind with
      | .closed => ⟨first, last, step, long⟩
      | .until => ⟨first, before last, step, long⟩
      | .downTo => ⟨first, last, -step, long⟩)) := by
    cases kind <;> simp only [makeRange, hpos, ↓reduceIte]
  refine ⟨_, hmake, fun v => ?_⟩
  cases kind with
  | closed =>
    rw [Progression.contains_up (r := ⟨first, last, step, long⟩) hs]
    simp [RangeKind.Denotes]
  | downTo =>
    have hneg := toInt_neg_of_pos hs
    rw [Progression.contains_down (r := ⟨first, last, -step, long⟩) hs hneg]
    simp [RangeKind.Denotes]
  | «until» =>
    rw [Progression.contains_up (r := ⟨first, before last, step, long⟩) hs]
    by_cases hl : last = Int64.minValue
    · subst hl
      -- Nothing lies before the end, so only a range that starts there has a number.
      have hv := v.minValue_le_toInt
      have hfirst := first.minValue_le_toInt
      simp only [before_least, RangeKind.Denotes, true_and]
      constructor
      · rintro ⟨hup, hle⟩
        obtain ⟨hge, -⟩ := (exists_steps_up hs _).mp hup
        exact .inr ⟨Int64.toInt_inj.mp (by omega), Int64.toInt_inj.mp (by omega)⟩
      · rintro (⟨-, hlt⟩ | ⟨rfl, rfl⟩)
        · omega
        · exact ⟨⟨0, by simp⟩, Int.le_refl _⟩
    · simp only [toInt_before hl, RangeKind.Denotes, hl, false_and, and_false, or_false,
        Int.le_sub_one_iff]

/-! ### Range expressions -/

variable (scope : Scope) (hole : String → Eval Value)

/-- Evaluated one after the other, the bounds and the step of a range stand for `a`, `b` and `s`. A
range without a step goes by one. -/
inductive Spans (first last : Expr) : Option Expr → Link → Int → Int → Int → Link → Prop where
  | plain {l l₁ l₂ : Link} {a b : Int} (ha : scope.Yields hole first l a l₁)
      (hb : scope.Yields hole last l₁ b l₂) : Spans first last none l a b 1 l₂
  | stepped {step : Expr} {l l₁ l₂ l₃ : Link} {a b s : Int} (ha : scope.Yields hole first l a l₁)
      (hb : scope.Yields hole last l₁ b l₂) (hs : scope.Yields hole step l₂ s l₃) :
      Spans first last (some step) l a b s l₃

variable {scope hole}

theorem evaluate_range (kind : RangeKind) (first last : Expr) :
    scope.evaluate hole (.range kind first last none) = (do
      let a ← scope.operand hole first
      let b ← scope.operand hole last
      let (a, b, long) ← rangeBounds a b
      makeRange kind a b 1 long) := by
  simp only [evaluate, operand, bind_assoc]

theorem evaluate_steppedRange (kind : RangeKind) (first last step : Expr) :
    scope.evaluate hole (.range kind first last (some step)) = (do
      let a ← scope.operand hole first
      let b ← scope.operand hole last
      let (a, b, long) ← rangeBounds a b
      makeRange kind a b (← rangeStep (← scope.operand hole step)) long) := by
  simp only [evaluate, operand, bind_assoc]

theorem evaluate_contains (e collection : Expr) (negated : Bool) :
    scope.evaluate hole (.contains e collection negated) = (do
      let v ← scope.evaluate hole e
      let collection ← scope.evaluate hole collection
      return .bool ((← scope.contains collection v) != negated)) := by
  rw [evaluate]

theorem rangeBounds_run {p q : Primitive} {x y : Int64} (hp : p.integer? = some x)
    (hq : q.integer? = some y) :
    ∃ long, rangeBounds (.primitive p) (.primitive q) = pure (x, y, long) := by
  simp only [rangeBounds, Value.integer?, hp, hq]
  exact ⟨_, rfl⟩

theorem rangeStep_run {p : Primitive} {x : Int64} (hp : p.integer? = some x) :
    rangeStep (.primitive p) = pure x := by
  simp only [rangeStep, Value.integer?, hp]

/-- A range expression makes a range of the integers that its bounds and its step stand for. -/
theorem Spans.run {first last : Expr} {step : Option Expr} {l l' : Link} {a b s : Int}
    (h : scope.Spans hole first last step l a b s l') (kind : RangeKind) :
    ∃ (x y z : Int64) (long : Bool), x.toInt = a ∧ y.toInt = b ∧ z.toInt = s ∧
      scope.evaluate hole (.range kind first last step) l = makeRange kind x y z long l' := by
  cases h with
  | plain ha hb =>
    obtain ⟨p, hp, hpa⟩ := ha
    obtain ⟨q, hq, hqb⟩ := hb
    obtain ⟨x, hx, rfl⟩ := Primitive.exists_integer hpa
    obtain ⟨y, hy, rfl⟩ := Primitive.exists_integer hqb
    obtain ⟨long, hbounds⟩ := rangeBounds_run hx hy
    refine ⟨x, y, 1, long, rfl, rfl, rfl, ?_⟩
    rw [evaluate_range, Eval.bind_run hp, Eval.bind_run hq, hbounds, pure_bind]
  | stepped ha hb hs =>
    obtain ⟨p, hp, hpa⟩ := ha
    obtain ⟨q, hq, hqb⟩ := hb
    obtain ⟨r, hr, hrs⟩ := hs
    obtain ⟨x, hx, rfl⟩ := Primitive.exists_integer hpa
    obtain ⟨y, hy, rfl⟩ := Primitive.exists_integer hqb
    obtain ⟨z, hz, rfl⟩ := Primitive.exists_integer hrs
    obtain ⟨long, hbounds⟩ := rangeBounds_run hx hy
    refine ⟨x, y, z, long, rfl, rfl, rfl, ?_⟩
    rw [evaluate_steppedRange, Eval.bind_run hp, Eval.bind_run hq, hbounds, pure_bind]
    change (scope.operand hole _ >>= _) _ = _
    rw [Eval.bind_run hr, rangeStep_run hz, pure_bind]

/-- Of a range with a positive step exactly the numbers of its progression are members, and the
least `long` where it is the start of a range and the end that the range leaves out. A range is not
made of another step. -/
theorem range_denotes {e first last : Expr} {step : Option Expr} {l l₁ l₂ : Link} {w : Value}
    {a b s : Int} (kind : RangeKind) (negated : Bool)
    (he : scope.evaluate hole e l = .ok w l₁)
    (hrange : scope.Spans hole first last step l₁ a b s l₂) :
    (s ≤ 0 →
      let rejected := EvalError.typeMismatch (.stepNotPositive s)
      scope.evaluate hole (.range kind first last step) l₁ = .error rejected l₂ ∧
      scope.evaluate hole (.contains e (.range kind first last step) negated) l =
        .error rejected l₂) ∧
    (0 < s → ∀ p v l₃, scope.unboxed w l₂ = .ok (.primitive p) l₃ → p.number? = some v →
      ∃ member : Bool,
        scope.evaluate hole (.contains e (.range kind first last step) negated) l =
          .ok (.bool (member != negated)) l₃ ∧
        (member = true ↔ kind.Denotes a b s v ∨
          kind = .until ∧ b = Int64.minValue.toInt ∧ a = b ∧ v = b)) := by
  obtain ⟨x, y, z, long, rfl, rfl, rfl, hmake⟩ := hrange.run kind
  rw [evaluate_contains, Eval.bind_run he]
  constructor
  · intro hs rejected
    rw [makeRange_notPositive kind x y hs] at hmake
    exact ⟨hmake, Eval.bind_error hmake⟩
  · intro hs p v l₃ hw hv
    obtain ⟨r, hr, hmem⟩ := makeRange_contains kind x y hs long
    obtain ⟨n, hn, rfl⟩ := Primitive.exists_integer hv
    rw [hr] at hmake
    refine ⟨r.contains n, ?_, ?_⟩
    · have hcontains : scope.contains (.range r) w l₂ = .ok (r.contains n) l₃ := by
        rw [contains, Eval.bind_run hw, Value.integer?, hn]
        rfl
      rw [Eval.bind_run hmake, Eval.bind_run hcontains]
      rfl
    · rw [hmem, Int64.toInt_inj, Int64.toInt_inj, Int64.toInt_inj]

/-- From the least to the greatest `long` in steps of three: the greatest is a member. -/
theorem range_denotes_extremes :
    let scope : Scope := ⟨0, 0, {}⟩
    let l : Link := { target := {} }
    let least : Expr := .literal (.long Int64.minValue)
    let greatest : Expr := .literal (.long Int64.maxValue)
    scope.run (.contains greatest (.range .closed least greatest (some (.literal (.int 3)))) false)
      l = .ok (.bool true) l := by
  intro scope l least greatest
  let hole (source : String) := scope.evaluateHole (source.utf8ByteSize / 5 + 1) source
  have hgreatest : scope.evaluate hole greatest l = .ok (.long Int64.maxValue) l := rfl
  have hyields (v : Int64) : scope.Yields hole (.literal (.long v)) l v.toInt l :=
    ⟨.long v, rfl, rfl⟩
  have hthree : scope.Yields hole (.literal (.int 3)) l 3 l := ⟨.int 3, rfl, rfl⟩
  obtain ⟨member, hrun, hmem⟩ := (range_denotes .closed false hgreatest
    (.stepped (hyields Int64.minValue) (hyields Int64.maxValue) hthree)).2 (by decide)
    (.long Int64.maxValue) _ l rfl rfl
  have hdenotes : RangeKind.closed.Denotes Int64.minValue.toInt Int64.maxValue.toInt 3
      Int64.maxValue.toInt := ⟨⟨6148914691236517205, by decide⟩, Int.le_refl _⟩
  rw [hmem.mpr (.inl hdenotes)] at hrun
  exact hrun

/-- The least `long` is a member of the range that starts there and leaves it out. -/
theorem range_denotes_not_least :
    let scope : Scope := ⟨0, 0, {}⟩
    let l : Link := { target := {} }
    let least : Expr := .literal (.long Int64.minValue)
    scope.run (.contains least (.range .until least least none) false) l = .ok (.bool true) l ∧
      ¬ RangeKind.until.Denotes Int64.minValue.toInt Int64.minValue.toInt 1
        Int64.minValue.toInt := by
  refine ⟨rfl, ?_⟩
  rintro ⟨-, hlt⟩
  exact Int.lt_irrefl _ hlt

end Scope
end Debugger
