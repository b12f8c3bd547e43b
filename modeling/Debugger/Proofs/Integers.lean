import Mathlib.Data.Int.Bitwise
import Debugger.Eval.Evaluate

/-!
Integral operators compute on integers. Each operand stands for an integer; an operator takes the
integers, computes the exact result and wraps it around at the width of the operation. Only a
division by zero fails.
-/

namespace Debugger

open Syntax

/-! ### Integers as bit vectors -/

theorem getLsbD_ofInt (w : Nat) (n : Int) (i : Nat) :
    (BitVec.ofInt w n).getLsbD i = (decide (i < w) && n.testBit i) := by
  cases n with
  | ofNat n =>
    rw [Int.ofNat_eq_natCast, BitVec.ofInt_natCast, BitVec.getLsbD_ofNat]
    rfl
  | negSucc n =>
    rw [BitVec.ofInt_negSucc_eq_not_ofNat, BitVec.getLsbD_not, BitVec.getLsbD_ofNat]
    by_cases h : i < w <;> simp [h, Int.testBit]

theorem ofInt_land (w : Nat) (a b : Int) :
    BitVec.ofInt w (a.land b) = BitVec.ofInt w a &&& BitVec.ofInt w b := by
  refine BitVec.eq_of_getLsbD_eq fun i hi => ?_
  simp only [BitVec.getLsbD_and, getLsbD_ofInt, Int.testBit_land, hi, decide_true, Bool.true_and]

theorem ofInt_lor (w : Nat) (a b : Int) :
    BitVec.ofInt w (a.lor b) = BitVec.ofInt w a ||| BitVec.ofInt w b := by
  refine BitVec.eq_of_getLsbD_eq fun i hi => ?_
  simp only [BitVec.getLsbD_or, getLsbD_ofInt, Int.testBit_lor, hi, decide_true, Bool.true_and]

theorem ofInt_xor (w : Nat) (a b : Int) :
    BitVec.ofInt w (a.xor b) = BitVec.ofInt w a ^^^ BitVec.ofInt w b := by
  refine BitVec.eq_of_getLsbD_eq fun i hi => ?_
  simp only [BitVec.getLsbD_xor, getLsbD_ofInt, Int.testBit_lxor, hi, decide_true, Bool.true_and]

theorem ofInt_mul_two_pow (w : Nat) (a : Int) (k : Nat) :
    BitVec.ofInt w (a * 2 ^ k) = BitVec.ofInt w a <<< k := by
  rw [BitVec.shiftLeft_eq_mul_twoPow, BitVec.ofInt_mul]
  have hpow : BitVec.ofInt w (2 ^ k) = BitVec.twoPow w k := by
    apply BitVec.eq_of_toNat_eq
    rw [BitVec.toNat_twoPow, ← BitVec.toNat_ofNat, ← BitVec.ofInt_natCast, Nat.cast_pow,
      Nat.cast_ofNat]
  rw [hpow]

theorem ofInt_fdiv_two_pow {w : Nat} {a : Int} (h : (BitVec.ofInt w a).toInt = a) (k : Nat) :
    BitVec.ofInt w (a.fdiv (2 ^ k)) = (BitVec.ofInt w a).sshiftRight k := by
  rw [← BitVec.ofInt_toInt (x := (BitVec.ofInt w a).sshiftRight k), BitVec.toInt_sshiftRight, h,
    Int.shiftRight_eq_div_pow, Int.natCast_pow, Int.cast_ofNat_Int,
    Int.fdiv_eq_ediv_of_nonneg _ (Int.pow_nonneg (by decide))]

theorem ofInt_emod_div_two_pow (w : Nat) (a : Int) (k : Nat) :
    BitVec.ofInt w (a % 2 ^ w / 2 ^ k) = BitVec.ofInt w a >>> k := by
  have hnat : ((BitVec.ofInt w a).toNat : Int) = a % 2 ^ w := by
    rw [BitVec.toNat_ofInt, Int.natCast_pow, Int.cast_ofNat_Int,
      Int.toNat_of_nonneg (Int.emod_nonneg _ (Int.pow_ne_zero (by decide)))]
  have hdiv : a % 2 ^ w / 2 ^ k = ((BitVec.ofInt w a >>> k).toNat : Int) := by
    rw [BitVec.toNat_ushiftRight, Nat.shiftRight_eq_div_pow, Int.natCast_ediv, hnat,
      Int.natCast_pow, Int.cast_ofNat_Int]
  rw [hdiv, BitVec.ofInt_natCast, BitVec.ofNat_toNat, BitVec.setWidth_eq]

/-- Masking the low bits of an amount leaves its remainder. -/
theorem ofInt_and_mask (b : Int) {n : Nat} (hn : n ≤ 64) :
    BitVec.ofInt 64 b &&& BitVec.ofNat 64 (2 ^ n - 1) = BitVec.ofNat 64 (b % 2 ^ n).toNat := by
  have hpos : 0 < (2 : Int) ^ n := Int.pow_pos (by decide)
  have hdvd : (2 : Int) ^ n ∣ 2 ^ 64 := pow_dvd_pow 2 hn
  have hle : 2 ^ n ≤ 2 ^ 64 := Nat.pow_le_pow_right (by decide) hn
  have hrem : (b % (2 ^ 64 : Nat)).toNat % 2 ^ n = (b % 2 ^ n).toNat := by
    rw [← Int.natCast_inj, Int.natCast_emod, Int.toNat_of_nonneg (Int.emod_nonneg _ (by decide)),
      Int.toNat_of_nonneg (Int.emod_nonneg _ (Int.ne_of_gt hpos))]
    exact_mod_cast Int.emod_emod_of_dvd b hdvd
  apply BitVec.eq_of_toNat_eq
  rw [BitVec.toNat_and, BitVec.toNat_ofInt, BitVec.toNat_ofNat, BitVec.toNat_ofNat,
    Nat.mod_eq_of_lt (Nat.lt_of_lt_of_le (Nat.sub_lt (Nat.two_pow_pos n) Nat.one_pos) hle),
    Nat.and_two_pow_sub_one_eq_mod, ← hrem,
    Nat.mod_eq_of_lt ((Nat.mod_lt _ (Nat.two_pow_pos n)).trans_le hle)]

namespace Primitive

/-! ### Operands and results -/

/-- The integer that an integral operand stands for; a character counts as its code point. -/
def number? : Primitive → Option Int
  | byte v => some v.toInt
  | short v => some v.toInt
  | int v => some v.toInt
  | long v => some v.toInt
  | char c => some c.toNat
  | boolean _ | float _ | double _ => none

def isLong : Primitive → Bool
  | long _ => true
  | _ => false

/-- How many bits an operation takes. -/
def wordSize (isLong : Bool) : Nat :=
  if isLong then 64 else 32

/-- The result of an operation that yields `n`, wrapped around at the width of the operation. -/
def wrapped (isLong : Bool) (n : Int) : Primitive :=
  if isLong then long (Int64.ofInt n) else int (Int32.ofInt n)

theorem number?_wrapped (isLong : Bool) (n : Int) :
    (wrapped isLong n).number? = some (n.bmod (2 ^ wordSize isLong)) := by
  cases isLong with
  | false => simp [wrapped, number?, wordSize, Int32.toInt_ofInt, Int32.size]
  | true => simp [wrapped, number?, wordSize, Int64.toInt_ofInt, Int64.size]

/-- Whether an operation of this width can have the number as an operand. -/
def Fits (isLong : Bool) (n : Int) : Prop :=
  -2 ^ (wordSize isLong - 1) ≤ n ∧ n < 2 ^ (wordSize isLong - 1)

theorem fits_of_number {p : Primitive} {a : Int} (h : p.number? = some a) : Fits p.isLong a := by
  cases p with
  | boolean _ | float _ | double _ => simp [number?] at h
  | byte v | short v =>
    obtain rfl : v.toInt = a := by simpa [number?] using h
    have := v.le_toInt
    have := v.toInt_lt
    simp [Fits, isLong, wordSize]
    omega
  | int v | long v =>
    obtain rfl : v.toInt = a := by simpa [number?] using h
    exact ⟨v.le_toInt, v.toInt_lt⟩
  | char c =>
    obtain rfl : (c.toNat : Int) = a := by simpa [number?] using h
    have hc : c.toNat < 0x110000 := by
      rcases c.valid with h | ⟨-, h⟩
      · exact h.trans (by decide)
      · exact h
    simp [Fits, isLong, wordSize]
    omega

theorem Fits.or_right {a : Int} {x y : Bool} (h : Fits x a) : Fits (x || y) a := by
  cases x <;> cases y <;> simp [Fits, wordSize] at h ⊢ <;> omega

theorem Fits.or_left {a : Int} {x y : Bool} (h : Fits y a) : Fits (x || y) a :=
  Bool.or_comm y x ▸ h.or_right

theorem width?_of_number {p : Primitive} {a : Int} (h : p.number? = some a) :
    p.width? = some (if p.isLong then .long else .int) := by
  cases p <;> simp_all [number?, width?, isLong]

theorem integer?_of_number {p : Primitive} {a : Int} (h : p.number? = some a) :
    p.integer? = some (Int64.ofInt a) := by
  cases p with
  | boolean _ | float _ | double _ => simp [number?] at h
  | byte v | short v | int v | long v | char c =>
    obtain rfl := Option.some.inj h
    simp [integer?, Int64.ofInt_eq_ofNat]

/-- Every number of an operand fits in 64 bits. -/
theorem exists_integer {p : Primitive} {a : Int} (h : p.number? = some a) :
    ∃ v : Int64, p.integer? = some v ∧ v.toInt = a := by
  have hfits : Fits (true || p.isLong) a := (fits_of_number h).or_left
  exact ⟨_, integer?_of_number h, Int64.toInt_ofInt_of_le hfits.1 hfits.2⟩

theorem asLong_of_number {p : Primitive} {a : Int} (h : p.number? = some a) :
    p.asLong = Int64.ofInt a := by
  rw [asLong, integer?_of_number h, Option.getD_some]

theorem asInt_of_number {p : Primitive} {a : Int} (h : p.number? = some a) :
    p.asInt = Int32.ofInt a := by
  rw [asInt, asLong_of_number h, Int64.toInt32_ofInt]

/-! ### Operations on integers -/

/-- `+ - * / %` on integers. -/
def exactArithmetic (op : BinaryOp) (a b : Int) : Except OperandFault Int :=
  match op with
  | .add => .ok (a + b)
  | .sub => .ok (a - b)
  | .mul => .ok (a * b)
  | .div => if b = 0 then .error .divisionByZero else .ok (a.tdiv b)
  | .rem => if b = 0 then .error .divisionByZero else .ok (a.tmod b)
  | _ => .error .mismatch

theorem ofInt64_eq_zero {b : Int} (hb : Fits true b) : Int64.ofInt b = 0 ↔ b = 0 := by
  rw [← Int64.toInt_inj, Int64.toInt_ofInt_of_le hb.1 hb.2]
  rfl

theorem ofInt32_eq_zero {b : Int} (hb : Fits false b) : Int32.ofInt b = 0 ↔ b = 0 := by
  rw [← Int32.toInt_inj, Int32.toInt_ofInt_of_le hb.1 hb.2]
  rfl

theorem longArithmetic_ofInt (op : BinaryOp) {a b : Int} (ha : Fits true a) (hb : Fits true b) :
    longArithmetic op (Int64.ofInt a) (Int64.ofInt b) = Int64.ofInt <$> exactArithmetic op a b := by
  have hdiv := Int64.ofInt_tdiv ha.1 (Int.le_of_lt_add_one ha.2) hb.1 (Int.le_of_lt_add_one hb.2)
  have hrem := Int64.ofInt_tmod ha.1 (Int.le_of_lt_add_one ha.2) hb.1 (Int.le_of_lt_add_one hb.2)
  cases op with
  | add => exact congrArg Except.ok (Int64.ofInt_add a b).symm
  | sub => exact congrArg Except.ok (Int64.ofInt_sub a b).symm
  | mul => exact congrArg Except.ok (Int64.ofInt_mul a b).symm
  | div =>
    simp only [longArithmetic, exactArithmetic, ofInt64_eq_zero hb, ← hdiv]
    split <;> rfl
  | rem =>
    simp only [longArithmetic, exactArithmetic, ofInt64_eq_zero hb, ← hrem]
    split <;> rfl
  | _ => rfl

theorem intArithmetic_ofInt (op : BinaryOp) {a b : Int} (ha : Fits false a) (hb : Fits false b) :
    intArithmetic op (Int32.ofInt a) (Int32.ofInt b) = Int32.ofInt <$> exactArithmetic op a b := by
  have hdiv := Int32.ofInt_tdiv ha.1 (Int.le_of_lt_add_one ha.2) hb.1 (Int.le_of_lt_add_one hb.2)
  have hrem := Int32.ofInt_tmod ha.1 (Int.le_of_lt_add_one ha.2) hb.1 (Int.le_of_lt_add_one hb.2)
  cases op with
  | add => exact congrArg Except.ok (Int32.ofInt_add a b).symm
  | sub => exact congrArg Except.ok (Int32.ofInt_sub a b).symm
  | mul => exact congrArg Except.ok (Int32.ofInt_mul a b).symm
  | div =>
    simp only [intArithmetic, exactArithmetic, ofInt32_eq_zero hb, ← hdiv]
    split <;> rfl
  | rem =>
    simp only [intArithmetic, exactArithmetic, ofInt32_eq_zero hb, ← hrem]
    split <;> rfl
  | _ => rfl

theorem max_width (x y : Bool) :
    (if x then Width.long else .int).max (if y then .long else .int) =
      if x || y then .long else .int := by
  cases x <;> cases y <;> rfl

theorem arithmetic_of_numbers (op : BinaryOp) {p q : Primitive} {a b : Int}
    (hp : p.number? = some a) (hq : q.number? = some b) :
    p.arithmetic op q = wrapped (p.isLong || q.isLong) <$> exactArithmetic op a b := by
  have ha : Fits (p.isLong || q.isLong) a := (fits_of_number hp).or_right
  have hb : Fits (p.isLong || q.isLong) b := (fits_of_number hq).or_left
  simp only [arithmetic, width?_of_number hp, width?_of_number hq, max_width, asLong_of_number hp,
    asLong_of_number hq, asInt_of_number hp, asInt_of_number hq]
  generalize (p.isLong || q.isLong) = isLong at ha hb ⊢
  cases isLong with
  | false =>
    simp only [Bool.false_eq_true, ↓reduceIte, intArithmetic_ofInt op ha hb]
    cases exactArithmetic op a b <;> rfl
  | true =>
    simp only [↓reduceIte, longArithmetic_ofInt op ha hb]
    cases exactArithmetic op a b <;> rfl

/-- `and or xor` on integers. -/
def exactBits (op : BinaryOp) (a b : Int) : Except OperandFault Int :=
  match op with
  | .and | .bitAnd => .ok (a.land b)
  | .or | .bitOr => .ok (a.lor b)
  | .bitXor => .ok (a.xor b)
  | _ => .error .mismatch

theorem bits_ofInt (op : BinaryOp) (a b : Int) :
    bits op (Int64.ofInt a) (Int64.ofInt b) = Int64.ofInt <$> exactBits op a b := by
  have hand : Int64.ofInt (a.land b) = Int64.ofInt a &&& Int64.ofInt b :=
    Int64.toBitVec_inj.mp (ofInt_land 64 a b)
  have hor : Int64.ofInt (a.lor b) = Int64.ofInt a ||| Int64.ofInt b :=
    Int64.toBitVec_inj.mp (ofInt_lor 64 a b)
  have hxor : Int64.ofInt (a.xor b) = Int64.ofInt a ^^^ Int64.ofInt b :=
    Int64.toBitVec_inj.mp (ofInt_xor 64 a b)
  cases op with
  | and | bitAnd => exact congrArg Except.ok hand.symm
  | or | bitOr => exact congrArg Except.ok hor.symm
  | bitXor => exact congrArg Except.ok hxor.symm
  | _ => rfl

theorem bitwise_of_numbers (op : BinaryOp) {p q : Primitive} {a b : Int}
    (hp : p.number? = some a) (hq : q.number? = some b) :
    p.bitwise op q = wrapped (p.isLong || q.isLong) <$> exactBits op a b := by
  unfold bitwise
  split
  · simp [number?] at hp
  · simp only [width?_of_number hp, width?_of_number hq, max_width, asLong_of_number hp,
      asLong_of_number hq, bits_ofInt]
    cases p.isLong || q.isLong <;> cases exactBits op a b
    · rfl
    · simp only [Bool.false_eq_true, ↓reduceIte]
      exact congrArg (Except.ok ∘ int) (Int64.toInt32_ofInt)
    · rfl
    · rfl

/-- `shl shr ushr` on integers: multiplication, division towards the smaller number and division of
the number without its sign by a power of two. -/
def exactShift (op : BinaryOp) (size : Nat) (a : Int) (k : Nat) : Except OperandFault Int :=
  match op with
  | .shl => .ok (a * 2 ^ k)
  | .shr => .ok (a.fdiv (2 ^ k))
  | .ushr => .ok (a % 2 ^ size / 2 ^ k)
  | _ => .error .mismatch

theorem longShift_ofInt (op : BinaryOp) {a : Int} (ha : Fits true a) {k : Nat} (hk : k < 64) :
    longShift op (Int64.ofInt a) (Int64.ofNat k) = Int64.ofInt <$> exactShift op 64 a k := by
  have hsmod : (Int64.ofNat k).toBitVec.smod 64 = BitVec.ofNat 64 k := by
    have : ∀ k < 64, (BitVec.ofNat 64 k).smod 64 = BitVec.ofNat 64 k := by decide
    exact this k hk
  have hmod : (Int64.ofNat k).toBitVec % 64 = BitVec.ofNat 64 k := by
    have : ∀ k < 64, BitVec.ofNat 64 k % 64 = BitVec.ofNat 64 k := by decide
    exact this k hk
  have hamount : (BitVec.ofNat 64 k).toNat = k := by
    rw [BitVec.toNat_ofNat, Nat.mod_eq_of_lt (hk.trans (by decide))]
  have ha' : (BitVec.ofInt 64 a).toInt = a := Int64.toInt_ofInt_of_le ha.1 ha.2
  cases op with
  | shl =>
    refine congrArg Except.ok (Int64.toBitVec_inj.mp ?_)
    rw [Int64.toBitVec_shiftLeft, hsmod, Int64.toBitVec_ofInt, Int64.toBitVec_ofInt,
      BitVec.shiftLeft_eq', hamount, ofInt_mul_two_pow]
  | shr =>
    refine congrArg Except.ok (Int64.toBitVec_inj.mp ?_)
    rw [Int64.toBitVec_shiftRight, hsmod, BitVec.sshiftRight', hamount, Int64.toBitVec_ofInt,
      Int64.toBitVec_ofInt, ofInt_fdiv_two_pow ha']
  | ushr =>
    refine congrArg Except.ok (Int64.toBitVec_inj.mp ?_)
    change ((Int64.ofInt a).toUInt64 >>> (Int64.ofNat k).toUInt64).toBitVec = _
    rw [UInt64.toBitVec_shiftRight]
    change (BitVec.ofInt 64 a) >>> ((Int64.ofNat k).toBitVec % 64) = _
    rw [hmod, BitVec.ushiftRight_eq', hamount, Int64.toBitVec_ofInt, ofInt_emod_div_two_pow]
  | _ => rfl

theorem intShift_ofInt (op : BinaryOp) {a : Int} (ha : Fits false a) {k : Nat} (hk : k < 32) :
    intShift op (Int32.ofInt a) (Int32.ofNat k) = Int32.ofInt <$> exactShift op 32 a k := by
  have hsmod : (Int32.ofNat k).toBitVec.smod 32 = BitVec.ofNat 32 k := by
    have : ∀ k < 32, (BitVec.ofNat 32 k).smod 32 = BitVec.ofNat 32 k := by decide
    exact this k hk
  have hmod : (Int32.ofNat k).toBitVec % 32 = BitVec.ofNat 32 k := by
    have : ∀ k < 32, BitVec.ofNat 32 k % 32 = BitVec.ofNat 32 k := by decide
    exact this k hk
  have hamount : (BitVec.ofNat 32 k).toNat = k := by
    rw [BitVec.toNat_ofNat, Nat.mod_eq_of_lt (hk.trans (by decide))]
  have ha' : (BitVec.ofInt 32 a).toInt = a := Int32.toInt_ofInt_of_le ha.1 ha.2
  cases op with
  | shl =>
    refine congrArg Except.ok (Int32.toBitVec_inj.mp ?_)
    rw [Int32.toBitVec_shiftLeft, hsmod, Int32.toBitVec_ofInt, Int32.toBitVec_ofInt,
      BitVec.shiftLeft_eq', hamount, ofInt_mul_two_pow]
  | shr =>
    refine congrArg Except.ok (Int32.toBitVec_inj.mp ?_)
    rw [Int32.toBitVec_shiftRight, hsmod, BitVec.sshiftRight', hamount, Int32.toBitVec_ofInt,
      Int32.toBitVec_ofInt, ofInt_fdiv_two_pow ha']
  | ushr =>
    refine congrArg Except.ok (Int32.toBitVec_inj.mp ?_)
    change ((Int32.ofInt a).toUInt32 >>> (Int32.ofNat k).toUInt32).toBitVec = _
    rw [UInt32.toBitVec_shiftRight]
    change (BitVec.ofInt 32 a) >>> ((Int32.ofNat k).toBitVec % 32) = _
    rw [hmod, BitVec.ushiftRight_eq', hamount, Int32.toBitVec_ofInt, ofInt_emod_div_two_pow]
  | _ => rfl

/-- How far a shift goes: the amount modulo the width of the left operand. -/
def shiftAmount (isLong : Bool) (b : Int) : Nat :=
  (b % wordSize isLong).toNat

theorem shiftAmount_lt (isLong : Bool) (b : Int) : shiftAmount isLong b < wordSize isLong := by
  cases isLong <;> simp only [shiftAmount, wordSize, Bool.false_eq_true, ↓reduceIte] <;> omega

theorem shift_of_numbers (op : BinaryOp) {p q : Primitive} {a b : Int}
    (hp : p.number? = some a) (hq : q.number? = some b) :
    p.shift op q =
      wrapped p.isLong <$> exactShift op (wordSize p.isLong) a (shiftAmount p.isLong b) := by
  have ha := fits_of_number hp
  simp only [shift, width?_of_number hp, integer?_of_number hq, asInt_of_number hp,
    asLong_of_number hp]
  generalize p.isLong = isLong at ha ⊢
  cases isLong with
  | false =>
    have hlt : (b % 32).toNat < 32 := by omega
    have hmask : (Int64.ofInt b &&& 31).toInt32 = Int32.ofNat (b % 32).toNat := by
      have : Int64.ofInt b &&& 31 = Int64.ofNat (b % 32).toNat :=
        Int64.toBitVec_inj.mp (ofInt_and_mask b (n := 5) (by decide))
      rw [this, ← Int64.ofInt_eq_ofNat, Int64.toInt32_ofInt, Int32.ofInt_eq_ofNat]
    simp only [Bool.false_eq_true, ↓reduceIte, hmask, intShift_ofInt op ha hlt]
    change _ = wrapped false <$> exactShift op 32 a (b % 32).toNat
    cases exactShift op 32 a (b % 32).toNat <;> rfl
  | true =>
    have hlt : (b % 64).toNat < 64 := by omega
    have hmask : Int64.ofInt b &&& 63 = Int64.ofNat (b % 64).toNat :=
      Int64.toBitVec_inj.mp (ofInt_and_mask b (n := 6) (by decide))
    simp only [↓reduceIte, hmask, longShift_ofInt op ha hlt]
    change _ = wrapped true <$> exactShift op 64 a (b % 64).toNat
    cases exactShift op 64 a (b % 64).toNat <;> rfl

/-- Negation and complement on integers. -/
def exactUnary (op : UnaryOp) (a : Int) : Except OperandFault Int :=
  match op with
  | .neg => .ok (0 - a)
  | .plus => .ok a
  | .bitNot => .ok (-a - 1)
  | .not => .error .mismatch

theorem unary_of_number (op : UnaryOp) {p : Primitive} {a : Int} (hp : p.number? = some a) :
    p.unary op = wrapped p.isLong <$> exactUnary op a := by
  have hneg : Int32.ofInt (0 - a) = -Int32.ofInt a := by rw [Int.zero_sub, Int32.ofInt_neg]
  have hnot : Int32.ofInt (-a - 1) = ~~~Int32.ofInt a := by
    rw [Int32.ofInt_sub, Int32.ofInt_neg, Int32.not_eq_neg_add]
    rfl
  cases p with
  | boolean _ | float _ | double _ => simp [number?] at hp
  | long v =>
    obtain rfl : v.toInt = a := Option.some.inj hp
    have hneg : Int64.ofInt (0 - v.toInt) = -v := by
      rw [Int.zero_sub, Int64.ofInt_neg, Int64.ofInt_toInt]
    have hnot : Int64.ofInt (-v.toInt - 1) = ~~~v := by
      rw [Int64.ofInt_sub, Int64.ofInt_neg, Int64.ofInt_toInt, Int64.not_eq_neg_add]
      rfl
    cases op with
    | neg => exact congrArg (Except.ok ∘ long) hneg.symm
    | plus => exact congrArg (Except.ok ∘ long) (Int64.ofInt_toInt v).symm
    | bitNot => exact congrArg (Except.ok ∘ long) hnot.symm
    | not => rfl
  | byte v | short v | int v | char c =>
    cases op with
    | neg =>
      simp only [unary, width?, asInt_of_number hp, ← hneg, ↓reduceIte]
      rfl
    | plus =>
      simp only [unary, width?, asInt_of_number hp, ↓reduceIte]
      rfl
    | bitNot =>
      simp only [unary, width?, asInt_of_number hp, ← hnot, ↓reduceIte]
      rfl
    | not => rfl

end Primitive

namespace Scope

open Primitive

variable (scope : Scope) {p q : Primitive} {a b : Int} (l : Link)

theorem unary_number (op : UnaryOp) {n : Int} (hp : p.number? = some a)
    (h : exactUnary op a = .ok n) :
    scope.unary op (.primitive p) l = .ok (.primitive (wrapped p.isLong n)) l := by
  have hrun : p.unary op = .ok (wrapped p.isLong n) := by rw [unary_of_number op hp, h]; rfl
  have hunboxed : scope.unboxed (.primitive p) = pure (.primitive p) := rfl
  simp only [Scope.unary, hunboxed, pure_bind, hrun]
  rfl

/-- What an operator answers when its result on integers is `n`, or a division by zero. -/
theorem onPrimitives_number (op : BinaryOp)
    {f : Primitive → Primitive → Except OperandFault Primitive} {isLong : Bool} {n : Int}
    {bad : Prop} [Decidable bad]
    (h : f p q = wrapped isLong <$> if bad then .error .divisionByZero else .ok n) :
    onPrimitives op (fun p q => .primitive <$> f p q) (.primitive p) (.primitive q) l =
      if bad then .error .divisionByZero l else .ok (.primitive (wrapped isLong n)) l := by
  simp only [onPrimitives, h]
  split <;> rfl

theorem onPrimitives_ok (op : BinaryOp)
    {f : Primitive → Primitive → Except OperandFault Primitive} {isLong : Bool} {n : Int}
    (h : f p q = wrapped isLong <$> .ok n) :
    onPrimitives op (fun p q => .primitive <$> f p q) (.primitive p) (.primitive q) l =
      .ok (.primitive (wrapped isLong n)) l := by
  simp only [onPrimitives, h]
  rfl

/-- Integral operators compute on the integers that their operands stand for and wrap the result
around, at 64 bits if an operand is a `long` and at 32 bits otherwise; a shift looks at its left
operand only for that. Nothing fails but a division by zero, and every division by zero does. -/
theorem integral_operators (hp : p.number? = some a) (hq : q.number? = some b) :
    let isLong := p.isLong || q.isLong
    let k := shiftAmount p.isLong b
    let run op := scope.binary op (.primitive p) (.primitive q) l
    let yields isLong n := EStateM.Result.ok (.primitive (wrapped isLong n)) l
    let fails := EStateM.Result.error .divisionByZero l
    run .add = yields isLong (a + b) ∧
    run .sub = yields isLong (a - b) ∧
    run .mul = yields isLong (a * b) ∧
    run .div = (if b = 0 then fails else yields isLong (a.tdiv b)) ∧
    run .rem = (if b = 0 then fails else yields isLong (a.tmod b)) ∧
    run .bitAnd = yields isLong (a.land b) ∧
    run .bitOr = yields isLong (a.lor b) ∧
    run .bitXor = yields isLong (a.xor b) ∧
    k < wordSize p.isLong ∧
    run .shl = yields p.isLong (a * 2 ^ k) ∧
    run .shr = yields p.isLong (a.fdiv (2 ^ k)) ∧
    run .ushr = yields p.isLong (a % 2 ^ wordSize p.isLong / 2 ^ k) ∧
    scope.unary .neg (.primitive p) l = yields p.isLong (0 - a) ∧
    scope.unary .bitNot (.primitive p) l = yields p.isLong (-a - 1) ∧
    (∀ isLong n, (wrapped isLong n).number? = some (n.bmod (2 ^ wordSize isLong))) ∧
    ∀ isLong, let least := -2 ^ (wordSize isLong - 1)
      wrapped isLong (least.tdiv (-1)) = wrapped isLong least ∧
        wrapped isLong (least.tmod (-1)) = wrapped isLong 0 := by
  have harith (op : BinaryOp) := arithmetic_of_numbers op hp hq
  have hbits (op : BinaryOp) := bitwise_of_numbers op hp hq
  have hshift (op : BinaryOp) := shift_of_numbers op hp hq
  refine ⟨onPrimitives_ok l _ (harith _), onPrimitives_ok l _ (harith _),
    onPrimitives_ok l _ (harith _), onPrimitives_number l _ (harith _),
    onPrimitives_number l _ (harith _), onPrimitives_ok l _ (hbits _),
    onPrimitives_ok l _ (hbits _), onPrimitives_ok l _ (hbits _), shiftAmount_lt p.isLong b,
    onPrimitives_ok l _ (hshift _), onPrimitives_ok l _ (hshift _),
    onPrimitives_ok l _ (hshift _), unary_number scope l .neg hp rfl,
    unary_number scope l .bitNot hp rfl, number?_wrapped, fun isLong => ?_⟩
  cases isLong <;> exact ⟨rfl, rfl⟩

/-- The least `long` divided by the `byte` minus one, and shifted by it: the amount counts as 63. -/
theorem integral_operators_least :
    let scope : Scope := ⟨0, 0, {}⟩
    let l : Link := { target := {} }
    let run op := scope.binary op (.primitive (.long Int64.minValue)) (.primitive (.byte (-1))) l
    run .div = .ok (.primitive (.long Int64.minValue)) l ∧
    run .rem = .ok (.primitive (.long 0)) l ∧
    run .shr = .ok (.primitive (.long (-1))) l ∧
    run .ushr = .ok (.primitive (.long 1)) l := by
  intro scope l run
  obtain ⟨-, -, -, hdiv, hrem, -, -, -, -, -, hshr, hushr, -⟩ :=
    integral_operators scope l (p := .long Int64.minValue) (q := .byte (-1)) rfl rfl
  exact ⟨hdiv, hrem, hshr, hushr⟩

/-! ### Operands as they are written -/

variable (hole : String → Eval Value)

/-- The value of an operand: a box counts as what it holds. -/
def operand (e : Expr) : Eval Value := do
  scope.unboxed (← scope.evaluate hole e)

/-- Evaluated over the link as it is in `l`, the operand stands for the integer `n` and leaves the
link as it is in `l'`. -/
def Yields (e : Expr) (l : Link) (n : Int) (l' : Link) : Prop :=
  ∃ p, scope.operand hole e l = .ok (.primitive p) l' ∧ p.number? = some n

end Scope
end Debugger
