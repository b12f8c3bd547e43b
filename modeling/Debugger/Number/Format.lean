/-!
Binary floating-point formats: what the bits of a number denote, and the number nearest to a
ratio or a decimal.
-/

namespace Debugger.Number

/-- A binary interchange format with a hidden leading bit. -/
structure Format where
  fractionBits : Nat
  exponentBits : Nat

namespace Format

def double : Format := ⟨52, 11⟩

def single : Format := ⟨23, 8⟩

/-- The scale of the numbers without a hidden bit: `m * 2 ^ minScale`. -/
def minScale (f : Format) : Int :=
  2 - (Nat.pow 2 (f.exponentBits - 1) : Int) - f.fractionBits

def signBit (f : Format) : Nat :=
  Nat.pow 2 (f.exponentBits + f.fractionBits)

def infinityBits (f : Format) : Nat :=
  (Nat.pow 2 f.exponentBits - 1) * Nat.pow 2 f.fractionBits

end Format

/-- What the bits of a number denote; a finite one is `mantissa * 2 ^ scale` with its sign. -/
inductive Decoded where
  | nan
  | infinite (negative : Bool)
  | finite (negative : Bool) (mantissa : Nat) (scale : Int)

namespace Format

def decode (f : Format) (bits : Nat) : Decoded :=
  let negative := f.signBit ≤ bits
  let magnitude := bits % f.signBit
  let exponent := magnitude / Nat.pow 2 f.fractionBits
  let fraction := magnitude % Nat.pow 2 f.fractionBits
  if magnitude = f.infinityBits then .infinite negative
  else if f.infinityBits < magnitude then .nan
  else if exponent = 0 then .finite negative fraction f.minScale
  else .finite negative (Nat.pow 2 f.fractionBits + fraction) (f.minScale + exponent - 1)

/-- The quotient rounded to the nearest natural number, a half to the even one. -/
def divideToEven (num den : Nat) : Nat :=
  let q := num / den
  let r := num % den
  if den < 2 * r || (den = 2 * r && q % 2 = 1) then q + 1 else q

/-- The exponent of the leading bit of `num / den`. -/
def leadingBit (num den : Nat) : Int :=
  let e : Int := (num.log2 : Int) - den.log2
  if num * Nat.pow 2 (-e).toNat < den * Nat.pow 2 e.toNat then e - 1 else e

/-- The bits of the number nearest to `num / den`, ties to the even mantissa. -/
def ofRatio (f : Format) (negative : Bool) (num den : Nat) : Nat :=
  let sign := if negative then f.signBit else 0
  if num = 0 then sign else
    let scale := max (leadingBit num den - f.fractionBits) f.minScale
    let mantissa :=
      divideToEven (num * Nat.pow 2 (-scale).toNat) (den * Nat.pow 2 scale.toNat)
    sign + min ((scale - f.minScale).toNat * Nat.pow 2 f.fractionBits + mantissa) f.infinityBits

/-- The bits of the number nearest to `digits * 10 ^ exponent`. Beyond `2 ^ exponentBits` places
the answer is infinity or zero, whatever the digits. -/
def ofDecimal (f : Format) (digits : Nat) (exponent : Int) : Nat :=
  let reach : Int := Nat.pow 2 f.exponentBits
  if digits = 0 then 0
  else if reach < exponent then f.infinityBits
  else if exponent + digits.log2 + 1 < -reach then 0
  else f.ofRatio false (digits * Nat.pow 10 exponent.toNat) (Nat.pow 10 (-exponent).toNat)

/-- The remainder of the division that truncates, with the sign of the dividend; it is exact. -/
def remainder (f : Format) (a b : Nat) : Nat :=
  let nan := f.infinityBits + 1
  match f.decode a, f.decode b with
  | .finite negative m p, .finite _ n q =>
    if n = 0 then nan else
      let scale := min p q
      let r := m * Nat.pow 2 (p - scale).toNat % (n * Nat.pow 2 (q - scale).toNat)
      f.ofRatio negative (r * Nat.pow 2 scale.toNat) (Nat.pow 2 (-scale).toNat)
  | .finite .., .infinite _ => a
  | _, _ => nan

end Format

end Debugger.Number
