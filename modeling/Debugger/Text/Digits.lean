/-!
Digits and the numbers they spell.
-/

namespace Debugger.Text

/-- The value of a digit up to `f` in either case; 16 for any other character. -/
def digitValue (c : Char) : Nat :=
  if c.isDigit then c.toNat - '0'.toNat
  else if 'a' ≤ c && c ≤ 'f' then c.toNat - 'a'.toNat + 10
  else if 'A' ≤ c && c ≤ 'F' then c.toNat - 'A'.toNat + 10
  else 16

def isDigitOf (radix : Nat) (c : Char) : Bool :=
  digitValue c < radix

def ofDigits (radix : Nat) (ds : List Char) : Nat :=
  ds.foldl (fun n c => n * radix + digitValue c) 0

theorem isDigitOf_ten {c : Char} (h : c.isDigit = true) : isDigitOf 10 c = true := by
  have hr : 48 ≤ c.val.toNat ∧ c.val.toNat ≤ 57 := by
    simpa [Char.isDigit, UInt32.le_iff_toNat_le] using h
  have hv : digitValue c = c.val.toNat - 48 := by
    unfold digitValue
    rw [if_pos h]
    rfl
  simp only [isDigitOf, hv, decide_eq_true_eq]
  omega

/-- A number of `bits` bits: decimal digits, which a plus may precede. -/
def readNat? (bits : Nat) (cs : List Char) : Option Nat :=
  let digits := if cs.head? = some '+' then cs.tail else cs
  let n := ofDigits 10 digits
  if !digits.isEmpty && digits.all Char.isDigit && n < Nat.pow 2 bits then some n else none

end Debugger.Text
