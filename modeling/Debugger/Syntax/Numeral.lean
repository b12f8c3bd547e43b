import Debugger.Syntax.Error
import Debugger.Text.Digits

/-!
Numerals. A scanner takes the characters from a lexeme's first one on and returns what it read
with the characters after it; a fault names the characters from its place on. Every scanner
leaves less text than it was given.
-/

namespace Debugger.Syntax

open Text

/-- A lexical failure and the text from its place on. -/
structure LexFault where
  cause : LexCause
  rest : List Char

abbrev Scanned (α : Type) := Except LexFault (α × List Char)

/-- The digits at the front, without the underscores between and after them. -/
def takeDigits (radix : Nat) : List Char → List Char × List Char
  | [] => ([], [])
  | c :: rest =>
    if isDigitOf radix c then
      let (ds, after) := takeDigits radix rest
      (c :: ds, after)
    else if c = '_' then takeDigits radix rest
    else ([], c :: rest)

theorem length_takeDigits_le (radix : Nat) (cs : List Char) :
    (takeDigits radix cs).2.length ≤ cs.length := by
  fun_induction takeDigits radix cs with
  | case1 => simp
  | case2 c rest _ ds after h ih => simp [h] at ih ⊢; omega
  | case3 _ _ ih => simp; omega
  | case4 => simp

/-- An integer literal is an `int` when it fits 32 bits and is not marked as a long. -/
def integerLexeme (value : Int64) (long : Bool) : Lexeme :=
  if !long && (Int32.ofInt value.toInt).toInt = value.toInt then
    .literal (.int (Int32.ofInt value.toInt))
  else .literal (.long value)

/-- What follows `0x` or `0b`, with the radix it announces. -/
def radixPrefix : List Char → Option (Nat × List Char)
  | a :: b :: rest =>
    if a ≠ '0' then none
    else if b = 'x' || b = 'X' then some (16, rest)
    else if b = 'b' || b = 'B' then some (2, rest)
    else none
  | _ => none

def dropLongMark : List Char → Bool × List Char
  | c :: rest => if c = 'L' || c = 'l' then (true, rest) else (false, c :: rest)
  | [] => (false, [])

/-- A literal with a radix prefix is read as a 64-bit pattern. -/
def scanRadix (start : List Char) (radix : Nat) (cs : List Char) : Scanned Lexeme :=
  let (digits, rest) := takeDigits radix cs
  let (long, rest) := dropLongMark rest
  let value := ofDigits radix digits
  if digits.isEmpty then .error ⟨.missingDigits, start⟩
  else if Nat.pow 2 64 ≤ value then .error ⟨.integerTooLarge, start⟩
  else .ok (integerLexeme (Int64.ofInt value) long, rest)

/-- A decimal numeral `digits * 10 ^ exponent`; a fraction or an exponent makes it floating. -/
structure Numeral where
  digits : Nat
  exponent : Int
  floating : Bool

def Numeral.double (n : Numeral) : Lexeme :=
  .literal (.double (Number.doubleOfDecimal n.digits n.exponent))

def Numeral.single (n : Numeral) : Lexeme :=
  .literal (.float (Number.singleOfDecimal n.digits n.exponent))

/-- The largest decimal integer literal. -/
def maxLong : Nat := Nat.pow 2 63 - 1

/-- The whole digits and, behind a point, the fraction: `1.5` has one, `1..5` and `1.x` do not. -/
def scanDigits (cs : List Char) : Numeral × List Char :=
  let (whole, rest) := takeDigits 10 cs
  match rest with
  | p :: d :: more =>
    if p = '.' && d.isDigit then
      let (fraction, after) := takeDigits 10 (d :: more)
      (⟨ofDigits 10 (whole ++ fraction), -fraction.length, true⟩, after)
    else (⟨ofDigits 10 whole, 0, false⟩, rest)
  | _ => (⟨ofDigits 10 whole, 0, false⟩, rest)

/-- The literal that a type suffix ends, if there is one; `L` marks no floating numeral. -/
def scanSuffix (start : List Char) (n : Numeral) : List Char → Option (Scanned Lexeme)
  | [] => none
  | c :: rest =>
    if (c = 'L' || c = 'l') && !n.floating then
      some (if n.digits ≤ maxLong then .ok (.literal (.long (Int64.ofInt n.digits)), rest)
        else .error ⟨.longTooLarge, start⟩)
    else if c = 'F' || c = 'f' then some (.ok (n.single, rest))
    else if c = 'D' || c = 'd' then some (.ok (n.double, rest))
    else none

/-- The digits of an exponent and its sign: `e5`, `E+5`, `e-5`. -/
def exponentDigits : List Char → Option (Bool × List Char)
  | e :: c :: rest =>
    if e ≠ 'e' && e ≠ 'E' then none
    else if c.isDigit then some (false, c :: rest)
    else if (c = '+' || c = '-') && rest.head?.any Char.isDigit then some (c = '-', rest)
    else none
  | _ => none

def scanExponent (n : Numeral) (cs : List Char) : Option (Numeral × List Char) :=
  match exponentDigits cs with
  | none => none
  | some (negative, digits) =>
    let (ds, rest) := takeDigits 10 digits
    let size : Int := ofDigits 10 ds
    some (⟨n.digits, n.exponent + (if negative then -size else size), true⟩, rest)

/-- A numeral without a suffix. -/
def finishNumber (start : List Char) (n : Numeral) (rest : List Char) : Scanned Lexeme :=
  if n.floating then .ok (n.double, rest)
  else if n.digits ≤ maxLong then .ok (integerLexeme (Int64.ofInt n.digits) false, rest)
  else .error ⟨.integerTooLarge, start⟩

/-- A suffix is looked for before the exponent and again behind it. -/
def scanDecimal (start : List Char) : Scanned Lexeme :=
  let (n, rest) := scanDigits start
  match scanSuffix start n rest with
  | some result => result
  | none =>
    match scanExponent n rest with
    | none => finishNumber start n rest
    | some (n, rest) => (scanSuffix start n rest).getD (finishNumber start n rest)

def scanNumber (start : List Char) : Scanned Lexeme :=
  match radixPrefix start with
  | some (radix, digits) => scanRadix start radix digits
  | none => scanDecimal start

theorem length_takeDigits_lt {radix : Nat} {c : Char} {cs : List Char}
    (h : isDigitOf radix c = true) : (takeDigits radix (c :: cs)).2.length < (c :: cs).length := by
  have := length_takeDigits_le radix cs
  simp [takeDigits, h]
  omega

theorem length_dropLongMark_le (cs : List Char) : (dropLongMark cs).2.length ≤ cs.length := by
  cases cs with
  | nil => simp [dropLongMark]
  | cons c cs => simp only [dropLongMark]; split <;> simp

theorem length_radixPrefix {cs rest : List Char} {radix : Nat}
    (h : radixPrefix cs = some (radix, rest)) : rest.length < cs.length := by
  unfold radixPrefix at h
  repeat' split at h
  all_goals first
    | contradiction
    | (cases h; simp only [List.length_cons]; omega)

theorem length_scanRadix {start cs rest : List Char} {radix : Nat} {l : Lexeme}
    (h : scanRadix start radix cs = .ok (l, rest)) : rest.length ≤ cs.length := by
  unfold scanRadix at h
  have h₁ := length_takeDigits_le radix cs
  have h₂ := length_dropLongMark_le (takeDigits radix cs).2
  simp only at h
  split at h
  · cases h
  · split at h
    · cases h
    · cases h
      omega

theorem length_scanDigits {cs : List Char} (hd : cs.head?.any Char.isDigit) :
    (scanDigits cs).2.length < cs.length := by
  cases cs with
  | nil => simp at hd
  | cons c cs =>
    have hc : isDigitOf 10 c = true := isDigitOf_ten (by simpa using hd)
    have hlt : (takeDigits 10 (c :: cs)).2.length < (c :: cs).length := length_takeDigits_lt hc
    unfold scanDigits
    simp only
    split
    · rename_i p d more heq
      split
      · have hle := length_takeDigits_le 10 (d :: more)
        rw [heq] at hlt
        simp at hlt hle ⊢
        omega
      · exact hlt
    · exact hlt

theorem length_scanSuffix {start cs rest : List Char} {n : Numeral} {l : Lexeme}
    (h : scanSuffix start n cs = some (.ok (l, rest))) : rest.length < cs.length := by
  unfold scanSuffix at h
  repeat' split at h
  all_goals simp_all

theorem length_exponentDigits {cs digits : List Char} {negative : Bool}
    (h : exponentDigits cs = some (negative, digits)) : digits.length < cs.length := by
  unfold exponentDigits at h
  repeat' split at h
  all_goals cases h
  all_goals simp only [List.length_cons]; omega

theorem length_scanExponent {cs rest : List Char} {n m : Numeral}
    (h : scanExponent n cs = some (m, rest)) : rest.length < cs.length := by
  unfold scanExponent at h
  split at h
  · cases h
  · rename_i negative digits heq
    have h₁ := length_exponentDigits heq
    have h₂ := length_takeDigits_le 10 digits
    simp only [Option.some.injEq, Prod.mk.injEq] at h
    obtain ⟨-, rfl⟩ := h
    omega

theorem length_finishNumber {start cs rest : List Char} {n : Numeral} {l : Lexeme}
    (h : finishNumber start n cs = .ok (l, rest)) : rest = cs := by
  unfold finishNumber at h
  repeat' split at h
  all_goals simp_all

theorem length_scanNumber {cs rest : List Char} {l : Lexeme} (hd : cs.head?.any Char.isDigit)
    (h : scanNumber cs = .ok (l, rest)) : rest.length < cs.length := by
  unfold scanNumber at h
  split at h
  · rename_i heq
    have := length_radixPrefix heq
    have := length_scanRadix h
    omega
  · unfold scanDecimal at h
    have hlt := length_scanDigits hd
    simp only at h
    split at h
    · rename_i heq
      have := length_scanSuffix (heq.trans (congrArg some h))
      omega
    · split at h
      · rw [length_finishNumber h]
        exact hlt
      · rename_i heq
        have hexp := length_scanExponent heq
        rename_i m after
        cases hs : scanSuffix cs m after with
        | none =>
          rw [hs] at h
          rw [length_finishNumber h]
          omega
        | some r =>
          rw [hs] at h
          have := length_scanSuffix (hs.trans (congrArg some h))
          omega

end Debugger.Syntax
