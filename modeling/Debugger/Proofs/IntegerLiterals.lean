import Mathlib.Data.Nat.Digits.Defs
import Debugger.Proofs.Layout

/-!
Integer literals and their values. A literal of two to the 31st or more is a long, and one with a
radix prefix may take all 64 bits of it. Where these bits are those of a negative `int`, the literal
is that `int`, unless it is marked as a long.
-/

namespace Debugger.Syntax

open Text

/-- The forms of integer literals. -/
inductive Base where
  | decimal | hexadecimal | binary

namespace Base

def radix : Base → Nat
  | decimal => 10
  | hexadecimal => 16
  | binary => 2

/-- What may stand in front of the digits. -/
def marks : Base → List (List Char)
  | decimal => [[]]
  | hexadecimal => [['0', 'x'], ['0', 'X']]
  | binary => [['0', 'b'], ['0', 'B']]

/-- The first value that is too large. -/
def limit : Base → Nat
  | decimal => 2 ^ 63
  | hexadecimal | binary => 2 ^ 64

end Base

/-- An integer literal: behind the mark of its base digits and underscores, among them a digit, and
perhaps the mark of a long. -/
structure IntegerLiteral where
  base : Base
  mark : List Char
  body : List Char
  suffix : List Char
  mark_mem : mark ∈ base.marks
  body_all : body.all (isDigitOrGap base.radix) = true
  body_any : body.any (isDigitOf base.radix) = true
  /-- No decimal literal begins with an underscore. -/
  decimal_head : base = .decimal → body.head?.any (isDigitOf 10) = true
  suffix_mem : suffix ∈ [[], ['L'], ['l']]

namespace IntegerLiteral

def chars (n : IntegerLiteral) : List Char :=
  n.mark ++ (n.body ++ n.suffix)

def digits (n : IntegerLiteral) : List Char :=
  n.body.filter (isDigitOf n.base.radix)

/-- The number that the digits write in the base. -/
def value (n : IntegerLiteral) : Nat :=
  Nat.ofDigits n.base.radix (n.digits.reverse.map digitValue)

/-- What goes on with a literal that has no suffix: more digits, a suffix, or what makes it a
floating numeral or another base's mark. -/
inductive Extends (n : IntegerLiteral) : List Char → Prop
  | digit {c : Char} (h : isDigitOrGap n.base.radix c = true) (rest : List Char) :
    Extends n (c :: rest)
  | long {c : Char} (h : isLongMark c = true) (rest : List Char) : Extends n (c :: rest)
  | floating (hbase : n.base = .decimal) {c : Char} (h : c ∈ ['F', 'f', 'D', 'd'])
    (rest : List Char) : Extends n (c :: rest)
  | fraction (hbase : n.base = .decimal) {d : Char} (h : d.isDigit = true) (rest : List Char) :
    Extends n ('.' :: d :: rest)
  | exponent (hbase : n.base = .decimal) {mark : List Char} (h : mark ∈ exponentMarks) {d : Char}
    (hd : d.isDigit = true) (rest : List Char) : Extends n (mark ++ d :: rest)
  | radix (hbase : n.base = .decimal) (hzero : n.body = ['0']) {c : Char}
    (h : c ∈ ['x', 'X', 'b', 'B']) (rest : List Char) : Extends n (c :: rest)

/-- The value that a literal has: its number as an `int` or as a `long`, or the negative one with
its bits. -/
inductive Denotes (n : IntegerLiteral) : Literal → Prop
  | int {v : Int32} (plain : n.suffix = []) (value : v.toInt = n.value) : n.Denotes (.int v)
  | long {v : Int64} (wide : n.suffix ≠ [] ∨ 2 ^ 31 ≤ n.value) (value : v.toInt = n.value) :
    n.Denotes (.long v)
  | pattern {v : Int64} (wide : n.suffix ≠ [] ∨ n.value < 2 ^ 64 - 2 ^ 31)
    (value : v.toInt = n.value - 2 ^ 64) : n.Denotes (.long v)
  | narrowed {v : Int32} (plain : n.suffix = []) (value : v.toInt = n.value - 2 ^ 64) :
    n.Denotes (.int v)

end IntegerLiteral

/-! ### Numbers of digits -/

theorem ofDigits_eq (radix : Nat) (ds : List Char) :
    ofDigits radix ds = Nat.ofDigits radix (ds.reverse.map digitValue) := by
  induction ds using List.reverseRecOn with
  | nil => rfl
  | append_singleton ds d ih =>
    rw [List.reverse_append, List.reverse_singleton, List.singleton_append, List.map_cons,
      Nat.ofDigits_cons, ← ih, ofDigits, List.foldl_append, ← ofDigits]
    simp [Nat.add_comm, Nat.mul_comm]

theorem isDigit_of_isDigitOf {c : Char} (h : isDigitOf 10 c = true) : c.isDigit = true := by
  by_contra hc
  have hlt : digitValue c < 10 := of_decide_eq_true h
  unfold digitValue at hlt
  rw [if_neg hc] at hlt
  split at hlt
  · omega
  · split at hlt <;> omega

/-- What may stand in front of digits that can have a sign. -/
def signs : List (List Char) :=
  [[], ['+']]

theorem exists_sign (cs : List Char) :
    ∃ sign ∈ signs, cs = sign ++ if cs.head? = some '+' then cs.tail else cs := by
  split
  · rename_i hplus
    obtain ⟨more, rfl⟩ := List.head?_eq_some_iff.mp hplus
    exact ⟨['+'], by decide, rfl⟩
  · exact ⟨[], by decide, rfl⟩

/-- Digits without their sign. -/
theorem unsigned_append {sign digits : List Char} (hsign : sign ∈ signs) {p : Char → Bool}
    (hdigits : digits.all p = true) (hplus : p '+' = false) :
    (if (sign ++ digits).head? = some '+' then (sign ++ digits).tail else sign ++ digits) =
      digits := by
  simp only [signs, List.mem_cons, List.not_mem_nil, or_false] at hsign
  rcases hsign with rfl | rfl
  · refine if_neg fun h => ?_
    obtain ⟨more, rfl⟩ := List.head?_eq_some_iff.mp h
    have hmem := List.all_eq_true.mp hdigits '+' List.mem_cons_self
    rw [hplus] at hmem
    contradiction
  · rfl

namespace IntegerLiteral

variable (n : IntegerLiteral) {rest : List Char}

theorem ofDigits_digits : ofDigits n.base.radix n.digits = n.value :=
  ofDigits_eq _ _

theorem digits_ne_nil : n.digits.isEmpty = false := by
  obtain ⟨c, hc, hdigit⟩ := List.any_eq_true.mp n.body_any
  have hmem : c ∈ n.digits := List.mem_filter.mpr ⟨hc, hdigit⟩
  cases hdigits : n.digits with
  | nil =>
    rw [hdigits] at hmem
    contradiction
  | cons => rfl

theorem takeDigits_body (hrest : rest.head?.any (isDigitOrGap n.base.radix) = false) :
    takeDigits n.base.radix (n.body ++ rest) = (n.digits, rest) := by
  obtain ⟨htake, hdrop⟩ := takeWhile_stopped n.body_all hrest
  rw [takeDigits_eq, htake, hdrop]
  rfl

/-! ### Scanning a literal -/

/-- Whether the literal is marked as a long. -/
def long (n : IntegerLiteral) : Bool :=
  !n.suffix.isEmpty

theorem suffix_cases : n.suffix = [] ∨ ∃ c, n.suffix = [c] ∧ isLongMark c = true := by
  have h := n.suffix_mem
  simp only [List.mem_cons, List.not_mem_nil, or_false] at h
  rcases h with h | h | h
  · exact .inl h
  · exact .inr ⟨'L', h, rfl⟩
  · exact .inr ⟨'l', h, rfl⟩

theorem chars_append : n.chars ++ rest = n.mark ++ (n.body ++ (n.suffix ++ rest)) := by
  simp [chars]

variable {n} (hends : n.suffix = [] → ¬ n.Extends rest)

include hends

/-- Behind the digits stands no other one. -/
theorem head_suffix : (n.suffix ++ rest).head?.any (isDigitOrGap n.base.radix) = false := by
  rcases n.suffix_cases with hsuffix | ⟨c, hsuffix, hc⟩
  · rw [hsuffix, List.nil_append]
    cases rest with
    | nil => rfl
    | cons c rest =>
      refine Bool.eq_false_iff.mpr fun hc => hends hsuffix ?_
      exact .digit hc rest
  · rw [hsuffix]
    simp only [isLongMark, Bool.or_eq_true, decide_eq_true_eq] at hc
    cases n.base <;> rcases hc with rfl | rfl <;> rfl

theorem dropLongMark_suffix : dropLongMark (n.suffix ++ rest) = (n.long, rest) := by
  rcases n.suffix_cases with hsuffix | ⟨c, hsuffix, hc⟩
  · have hrest : rest.head?.any isLongMark = false := by
      cases rest with
      | nil => rfl
      | cons c rest =>
        refine Bool.eq_false_iff.mpr fun hc => hends hsuffix ?_
        exact .long hc rest
    simp [long, hsuffix, dropLongMark_eq, hrest]
  · simp [long, hsuffix, dropLongMark_eq, hc]

theorem scanRadix_body (start : List Char) :
    scanRadix start n.base.radix (n.body ++ (n.suffix ++ rest)) =
      if 2 ^ 64 ≤ n.value then .error ⟨.integerTooLarge, start⟩
      else .ok (integerLexeme (Int64.ofInt n.value) n.long, rest) := by
  simp only [scanRadix, n.takeDigits_body (head_suffix hends), dropLongMark_suffix hends,
    n.digits_ne_nil, n.ofDigits_digits, Bool.false_eq_true, if_false]
  rfl

theorem scanDigits_body (hbase : n.base = .decimal) :
    scanDigits (n.body ++ (n.suffix ++ rest)) = (⟨n.value, 0, false⟩, n.suffix ++ rest) := by
  have htake := n.takeDigits_body (head_suffix hends)
  have hvalue := n.ofDigits_digits
  rw [hbase] at htake hvalue
  have hpoint : startsFraction (n.suffix ++ rest) = false := by
    refine Bool.eq_false_iff.mpr fun htrue => ?_
    obtain ⟨d, more, hd, hmore⟩ := startsFraction_eq_true htrue
    rcases n.suffix_cases with hsuffix | ⟨c, hsuffix, hc⟩
    · rw [hsuffix, List.nil_append] at hmore
      exact hends hsuffix (hmore ▸ .fraction hbase hd more)
    · rw [hsuffix, List.singleton_append] at hmore
      obtain ⟨rfl, -⟩ := List.cons.inj hmore
      contradiction
  have htake : takeDigits 10 (n.body ++ (n.suffix ++ rest)) = (n.digits, n.suffix ++ rest) := htake
  have hvalue : ofDigits 10 n.digits = n.value := hvalue
  simp only [scanDigits_eq, htake, hpoint, hvalue, Bool.false_eq_true, if_false]

/-- Behind a decimal literal without a suffix stands neither a suffix nor an exponent. -/
theorem scanSuffix_rest (hbase : n.base = .decimal) (hsuffix : n.suffix = []) (start : List Char) :
    scanSuffix start ⟨n.value, 0, false⟩ rest = none ∧
      scanExponent ⟨n.value, 0, false⟩ rest = none := by
  constructor
  · refine scanSuffix_eq_none_iff.mpr ?_
    cases rest with
    | nil => rfl
    | cons c rest =>
      refine Bool.eq_false_iff.mpr fun hmark => hends hsuffix ?_
      have hmark : isLongMark c = true ∨ (c = 'F' ∨ c = 'f') ∨ c = 'D' ∨ c = 'd' := by
        simpa [isSuffixMark, or_assoc] using hmark
      rcases hmark with hlong | hfloat
      · exact .long hlong rest
      · exact .floating hbase (by simpa [or_assoc] using hfloat) rest
  · have hnone : exponentDigits rest = none := by
      cases hsome : exponentDigits rest with
      | none => rfl
      | some read =>
        obtain ⟨negative, digits⟩ := read
        obtain ⟨mark, hmark, d, more, hd, rfl, rfl, -⟩ := exponentDigits_eq_some_iff.mp hsome
        exact absurd (.exponent hbase hmark hd more) (hends hsuffix)
    simp only [scanExponent, hnone]

theorem scanDecimal_body (hbase : n.base = .decimal) :
    ∃ cause, scanDecimal (n.body ++ (n.suffix ++ rest)) =
      if n.value ≤ maxLong then .ok (integerLexeme (Int64.ofInt n.value) n.long, rest)
      else .error ⟨cause, n.body ++ (n.suffix ++ rest)⟩ := by
  have hdigits := scanDigits_body hends hbase
  rcases n.suffix_cases with hsuffix | ⟨c, hsuffix, hc⟩
  · obtain ⟨hnone, hexponent⟩ := scanSuffix_rest hends hbase hsuffix (n.body ++ rest)
    rw [hsuffix, List.nil_append] at hdigits ⊢
    refine ⟨.integerTooLarge, ?_⟩
    simp only [scanDecimal, hdigits, hnone, hexponent, finishNumber, long, hsuffix]
    rfl
  · have hlong : scanSuffix (n.body ++ (n.suffix ++ rest)) ⟨n.value, 0, false⟩ (n.suffix ++ rest) =
        some (if n.value ≤ maxLong then .ok (.literal (.long (Int64.ofInt n.value)), rest)
          else .error ⟨.longTooLarge, n.body ++ (n.suffix ++ rest)⟩) := by
      rw [hsuffix]
      simp only [isLongMark, Bool.or_eq_true, decide_eq_true_eq] at hc
      rcases hc with rfl | rfl <;> rfl
    have hmarked : n.long = true := by
      rw [long, hsuffix]
      rfl
    refine ⟨.longTooLarge, ?_⟩
    simp only [scanDecimal, hdigits, hlong, hmarked]
    rfl

/-- A decimal literal does not begin like one of another base. -/
theorem radixPrefix_body (hbase : n.base = .decimal) :
    radixPrefix (n.body ++ (n.suffix ++ rest)) = none := by
  cases hsome : radixPrefix (n.body ++ (n.suffix ++ rest)) with
  | none => rfl
  | some read =>
    exfalso
    obtain ⟨radix, digits⟩ := read
    obtain ⟨c, hcs, hc⟩ := radixPrefix_eq_some_iff.mp hsome
    have hmark : c ∈ ['x', 'X', 'b', 'B'] := by
      rcases hc with ⟨rfl | rfl, -⟩ | ⟨rfl | rfl, -⟩ <;> decide
    match hbody : n.body with
    | [] =>
      have hhead := n.decimal_head hbase
      rw [hbody] at hhead
      contradiction
    | [d] =>
      rw [hbody, List.singleton_append] at hcs
      obtain ⟨rfl, htail⟩ := List.cons.inj hcs
      rcases n.suffix_cases with hsuffix | ⟨l, hsuffix, hl⟩
      · rw [hsuffix, List.nil_append] at htail
        exact hends hsuffix (htail ▸ .radix hbase hbody hmark digits)
      · rw [hsuffix, List.singleton_append] at htail
        obtain ⟨rfl, -⟩ := List.cons.inj htail
        have hnot : ∀ m ∈ ['x', 'X', 'b', 'B'], isLongMark m = false := by simp [isLongMark]
        rw [hnot l hmark] at hl
        contradiction
    | d :: e :: more =>
      have hall := List.all_eq_true.mp n.body_all e (by simp [hbody])
      rw [hbody, List.cons_append, List.cons_append] at hcs
      obtain ⟨-, hcs⟩ := List.cons.inj hcs
      obtain ⟨rfl, -⟩ := List.cons.inj hcs
      have hnot : ∀ m ∈ ['x', 'X', 'b', 'B'], isDigitOrGap 10 m = false := by
        simp [isDigitOrGap, isDigitOf, digitValue, Char.isDigit]
      rw [hbase, show Base.decimal.radix = 10 from rfl, hnot e hmark] at hall
      contradiction

theorem scanNumber_marked (hlimit : n.base.limit = 2 ^ 64)
    (hmark : ∀ mark ∈ n.base.marks, ∀ cs, radixPrefix (mark ++ cs) = some (n.base.radix, cs)) :
    scanNumber (n.chars ++ rest) =
      if n.value < n.base.limit then .ok (integerLexeme (Int64.ofInt n.value) n.long, rest)
      else .error ⟨.integerTooLarge, n.chars ++ rest⟩ := by
  have hmarked : radixPrefix (n.chars ++ rest) =
      some (n.base.radix, n.body ++ (n.suffix ++ rest)) := by
    rw [chars_append, hmark _ n.mark_mem]
  simp only [scanNumber, hmarked, scanRadix_body hends, hlimit]
  by_cases hlarge : 2 ^ 64 ≤ n.value
  · rw [if_pos hlarge, if_neg (Nat.not_lt.mpr hlarge)]
  · rw [if_neg hlarge, if_pos (Nat.lt_of_not_le hlarge)]

/-- A literal is scanned as its number, if that is not too large. -/
theorem scanNumber_chars :
    ∃ cause, scanNumber (n.chars ++ rest) =
      if n.value < n.base.limit then .ok (integerLexeme (Int64.ofInt n.value) n.long, rest)
      else .error ⟨cause, n.chars ++ rest⟩ := by
  have hmarked := scanNumber_marked hends
  cases hbase : n.base with
  | decimal =>
    have hmark : n.mark = [] := by
      have h := n.mark_mem
      rw [hbase] at h
      exact List.mem_singleton.mp h
    obtain ⟨cause, hscan⟩ := scanDecimal_body hends hbase
    refine ⟨cause, ?_⟩
    rw [chars_append, hmark, List.nil_append]
    simp only [scanNumber, radixPrefix_body hends hbase, hscan]
    have hlimit : n.value ≤ maxLong ↔ n.value < Base.decimal.limit := by
      rw [show maxLong = 2 ^ 63 - 1 from rfl, show Base.decimal.limit = 2 ^ 63 from rfl]
      omega
    simp only [hlimit]
  | hexadecimal | binary =>
    rw [hbase] at hmarked
    refine ⟨_, hmarked rfl fun mark hmark cs => ?_⟩
    simp only [Base.marks, List.mem_cons, List.not_mem_nil, or_false] at hmark
    rcases hmark with rfl | rfl <;> rfl

/-! ### Values -/

omit hends in
/-- The number, or the negative one with its bits. -/
theorem toInt_ofInt_value (hvalue : n.value < 2 ^ 64) :
    (Int64.ofInt n.value).toInt = n.value ∨
      2 ^ 63 ≤ n.value ∧ (Int64.ofInt n.value).toInt = n.value - 2 ^ 64 := by
  rw [Int64.toInt_ofInt, Int.bmod_def]
  norm_num [Int64.size]
  omega

omit hends in
theorem toInt_ofInt_iff (x : Int) :
    (Int32.ofInt x).toInt = x ↔ -2 ^ 31 ≤ x ∧ x < 2 ^ 31 := by
  constructor
  · intro h
    have hle := (Int32.ofInt x).le_toInt
    have hlt := (Int32.ofInt x).toInt_lt
    omega
  · rintro ⟨hle, hlt⟩
    exact Int32.toInt_ofInt_of_le hle hlt

omit hends in
/-- The bits of the number make a literal of the width that it needs. -/
theorem integerLexeme_denotes (hvalue : n.value < n.base.limit) :
    ∃ v, n.Denotes v ∧ integerLexeme (Int64.ofInt n.value) n.long = .literal v := by
  have hlimit : n.base.limit ≤ 2 ^ 64 := by
    cases n.base <;> decide
  have hvalue := toInt_ofInt_value (Nat.lt_of_lt_of_le hvalue hlimit)
  have hsuffix : n.long = false ↔ n.suffix = [] := by
    simp [long]
  unfold integerLexeme
  split
  · rename_i hnarrow
    simp only [Bool.and_eq_true, Bool.not_eq_true', decide_eq_true_eq] at hnarrow
    obtain ⟨hplain, hfits⟩ := hnarrow
    refine ⟨_, ?_, rfl⟩
    rcases hvalue with hnumber | ⟨-, hbits⟩
    · exact .int (hsuffix.mp hplain) (hfits.trans hnumber)
    · exact .narrowed (hsuffix.mp hplain) (hfits.trans hbits)
  · rename_i hwide
    simp only [Bool.and_eq_true, Bool.not_eq_true', decide_eq_true_eq, toInt_ofInt_iff, hsuffix,
      not_and_or (a := n.suffix = [])] at hwide
    refine ⟨_, ?_, rfl⟩
    rcases hvalue with hnumber | ⟨hlarge, hbits⟩
    · exact .long (hwide.imp_right fun hfits => by omega) hnumber
    · exact .pattern (hwide.imp_right fun hfits => by omega) hbits

/-! ### Literals in a text -/

omit hends in
/-- A literal begins with a digit, whatever its base is. -/
theorem chars_eq_cons (n : IntegerLiteral) :
    ∃ c cs, n.chars = c :: cs ∧ c.isDigit = true := by
  have hmark := n.mark_mem
  cases hbase : n.base with
  | decimal =>
    rw [hbase] at hmark
    have hmark : n.mark = [] := List.mem_singleton.mp hmark
    have hhead := n.decimal_head hbase
    cases hbody : n.body with
    | nil =>
      rw [hbody] at hhead
      contradiction
    | cons c cs =>
      rw [hbody] at hhead
      refine ⟨c, cs ++ n.suffix, ?_, isDigit_of_isDigitOf (by simpa using hhead)⟩
      rw [chars, hmark, hbody, List.nil_append, List.cons_append]
  | hexadecimal | binary =>
    rw [hbase] at hmark
    simp only [Base.marks, List.mem_cons, List.not_mem_nil, or_false] at hmark
    rcases hmark with hmark | hmark <;> exact ⟨'0', _, by rw [chars, hmark]; rfl, by decide⟩

theorem tokensFrom_chars (size : Nat) :
    (n.value < n.base.limit → ∃ v, n.Denotes v ∧ tokensFrom size (n.chars ++ rest) =
        (tokensFrom size rest).map (⟨.literal v, size - byteLength (n.chars ++ rest)⟩ :: ·)) ∧
      (n.base.limit ≤ n.value → ∃ cause, tokensFrom size (n.chars ++ rest) =
        .error (.lexical cause (size - byteLength (n.chars ++ rest)))) := by
  obtain ⟨cause, hscan⟩ := scanNumber_chars hends
  obtain ⟨c, cs, hchars, hc⟩ := n.chars_eq_cons
  have hblank := Bool.eq_false_iff.mp (isBlank_of_isDigit hc)
  rw [hchars, List.cons_append] at hscan ⊢
  rw [← scanLexeme_of_isDigit hc] at hscan
  rw [tokensFrom_eq, List.dropWhile_cons_of_neg hblank]
  constructor
  · intro hvalue
    obtain ⟨v, hdenotes, hv⟩ := integerLexeme_denotes hvalue
    rw [if_pos hvalue, hv] at hscan
    simp only [hscan]
    exact ⟨v, hdenotes, rfl⟩
  · intro hvalue
    rw [if_neg (Nat.not_lt.mpr hvalue)] at hscan
    simp only [hscan]
    exact ⟨cause, rfl⟩

omit hends in
theorem not_extends_of_marked (hbase : n.base ≠ .decimal)
    (hrest : rest.head?.any (fun c => isDigitOrGap n.base.radix c || isLongMark c) = false) :
    ¬ n.Extends rest := by
  intro h
  cases h with
  | digit h | long h => simp [h] at hrest
  | floating h | fraction h | exponent h | radix h => exact hbase h

omit hends in
/-- The number of a literal tells which of the values it has. -/
theorem Denotes.range {v : Literal} (h : n.Denotes v) :
    match v with
    | .int v => n.suffix = [] ∧
        (v.toInt = n.value ∧ n.value < 2 ^ 31 ∨
          v.toInt = n.value - 2 ^ 64 ∧ 2 ^ 64 - 2 ^ 31 ≤ n.value)
    | .long v => (v.toInt = n.value ∧ n.value < 2 ^ 63 ∧ (n.suffix = [] → 2 ^ 31 ≤ n.value)) ∨
        (v.toInt = n.value - 2 ^ 64 ∧ 2 ^ 63 ≤ n.value ∧
          (n.suffix = [] → n.value < 2 ^ 64 - 2 ^ 31))
    | _ => False := by
  cases h with
  | @int v hplain hvalue =>
    have hlt := v.toInt_lt
    exact ⟨hplain, .inl ⟨hvalue, by omega⟩⟩
  | @long v hwide hvalue =>
    have hlt := v.toInt_lt
    exact .inl ⟨hvalue, by omega, hwide.resolve_left ∘ not_not.mpr⟩
  | @pattern v hwide hvalue =>
    have hle := v.le_toInt
    exact .inr ⟨hvalue, by omega, hwide.resolve_left ∘ not_not.mpr⟩
  | @narrowed v hplain hvalue =>
    have hle := v.le_toInt
    exact ⟨hplain, .inr ⟨hvalue, by omega⟩⟩

omit hends in
/-- A literal has only one value. -/
theorem Denotes.unique {v w : Literal} (hv : n.Denotes v) (hw : n.Denotes w) : v = w := by
  have hv := hv.range
  have hw := hw.range
  cases v with
  | int v =>
    cases w with
    | int w =>
      have hvalue : v.toInt = w.toInt := by
        dsimp only at hv hw
        omega
      exact congrArg Literal.int (Int32.toInt_inj.mp hvalue)
    | long w =>
      obtain ⟨hplain, hv⟩ := hv
      rcases hw with ⟨-, hlt, hwide⟩ | ⟨-, hle, hwide⟩ <;> have := hwide hplain <;> omega
    | _ => exact hw.elim
  | long v =>
    cases w with
    | long w =>
      have hvalue : v.toInt = w.toInt := by
        dsimp only at hv hw
        omega
      exact congrArg Literal.long (Int64.toInt_inj.mp hvalue)
    | int w =>
      obtain ⟨hplain, hw⟩ := hw
      rcases hv with ⟨-, hlt, hwide⟩ | ⟨-, hle, hwide⟩ <;> have := hwide hplain <;> omega
    | _ => exact hw.elim
  | _ => exact hv.elim

end IntegerLiteral

theorem exists_hexadecimal (body : List Char) (hall : body.all (isDigitOrGap 16) = true)
    (hany : body.any (isDigitOf 16) = true) :
    ∃ n : IntegerLiteral, n.base = .hexadecimal ∧ n.suffix = [] ∧
      n.chars = '0' :: 'x' :: body ∧ n.value = ofDigits 16 (body.filter (isDigitOf 16)) := by
  let n : IntegerLiteral :=
    ⟨.hexadecimal, ['0', 'x'], body, [], by decide, hall, hany, nofun, by decide⟩
  refine ⟨n, rfl, rfl, ?_, n.ofDigits_digits.symm⟩
  rw [IntegerLiteral.chars, List.append_nil]
  rfl

/-- An integer literal that nothing goes on with, where the tokens in front of it have been read,
is the token of its value. If the literal is too large, it is what is wrong with the text. Where the
text begins with the literal, `before` is empty. -/
theorem integerLiteral_read {text : String} (n : IntegerLiteral) {front rest : List Char}
    {before : List Token} (htext : text.toList = front ++ (n.chars ++ rest))
    (hends : n.suffix = [] → ¬ n.Extends rest)
    (hbefore : tokenize text = (tokensFrom text.utf8ByteSize (n.chars ++ rest)).map (before ++ ·)) :
    (n.value < n.base.limit → ∃ v, n.Denotes v ∧
        tokenize text = (tokensFrom text.utf8ByteSize rest).map
          (before ++ ⟨.literal v, byteLength front⟩ :: ·)) ∧
      (n.base.limit ≤ n.value → ∃ cause,
        tokenize text = .error (.lexical cause (byteLength front))) := by
  have hoffset : text.utf8ByteSize - byteLength (n.chars ++ rest) = byteLength front := by
    rw [← byteLength_toList, htext, byteLength_append, Nat.add_sub_cancel]
  obtain ⟨hread, hlarge⟩ := IntegerLiteral.tokensFrom_chars hends text.utf8ByteSize
  rw [hoffset] at hread hlarge
  constructor
  · intro hvalue
    obtain ⟨v, hdenotes, hv⟩ := hread hvalue
    refine ⟨v, hdenotes, ?_⟩
    rw [hbefore, hv]
    cases tokensFrom text.utf8ByteSize rest <;> rfl
  · intro hvalue
    obtain ⟨cause, hcause⟩ := hlarge hvalue
    refine ⟨cause, ?_⟩
    rw [hbefore, hcause]
    rfl

theorem integerLiteral_read_grouped :
    tokenize "-0xFF_ff" =
      .ok [⟨.symbol .minus, 0⟩, ⟨.literal (.int 65535), 1⟩, ⟨.eof, 8⟩] := by
  obtain ⟨n, hbase, hsuffix, hchars, hvalue⟩ :=
    exists_hexadecimal ['F', 'F', '_', 'f', 'f'] (by decide) (by decide)
  have hvalue : n.value = 65535 := hvalue
  have hends : ¬ n.Extends [] := IntegerLiteral.not_extends_of_marked (by simp [hbase]) rfl
  have htext : "-0xFF_ff".toList = ['-'] ++ (n.chars ++ []) := by
    rw [hchars]
    rfl
  have hbefore : tokenize "-0xFF_ff" =
      (tokensFrom 8 (n.chars ++ [])).map ([⟨.symbol .minus, 0⟩] ++ ·) := by
    have hscan : scanLexeme ('-' :: (n.chars ++ [])) = .ok (.symbol .minus, n.chars ++ []) := by
      rw [hchars]
      rfl
    have hdrop : "-0xFF_ff".toList.dropWhile isBlank = '-' :: (n.chars ++ []) := by
      rw [htext]
      rfl
    have hoffset : "-0xFF_ff".utf8ByteSize - byteLength ('-' :: (n.chars ++ [])) = 0 := by
      rw [hchars]
      rfl
    rw [tokenize, tokensFrom_eq, hdrop]
    simp only [hscan, hoffset]
    rfl
  obtain ⟨v, hv, htokens⟩ := (integerLiteral_read n htext (fun _ => hends) hbefore).1
    (by simp [hvalue, hbase, Base.limit])
  obtain rfl := hv.unique (.int (v := 65535) hsuffix (by simp [hvalue]))
  have hrest : tokensFrom 8 [] = .ok [⟨.eof, 8⟩] := tokensFrom_blanks rfl 8
  rw [htokens]
  change (tokensFrom 8 []).map _ = _
  rw [hrest]
  rfl

/-- With all 64 bits set a literal is an `int`, although its number needs more than 32 bits. -/
theorem integerLiteral_negative :
    tokenize "0xFFFFFFFFFFFFFFFF" = .ok [⟨.literal (.int (-1)), 0⟩, ⟨.eof, 18⟩] := by
  obtain ⟨n, hbase, hsuffix, hchars, hvalue⟩ :=
    exists_hexadecimal (List.replicate 16 'F') (by decide) (by decide)
  have hvalue : n.value = 2 ^ 64 - 1 := hvalue
  have hends : ¬ n.Extends [] := IntegerLiteral.not_extends_of_marked (by simp [hbase]) rfl
  obtain ⟨v, hv, hread⟩ := (IntegerLiteral.tokensFrom_chars (fun _ => hends) 18).1
    (by simp [hvalue, hbase, Base.limit])
  obtain rfl := hv.unique (.narrowed (v := -1) hsuffix (by simp [hvalue]))
  have hrest : tokensFrom 18 [] = .ok [⟨.eof, 18⟩] := tokensFrom_blanks rfl 18
  rw [hrest, hchars] at hread
  exact hread

end Debugger.Syntax
