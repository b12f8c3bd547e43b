import Mathlib.Data.Nat.Digits.Lemmas
import Debugger.Proofs.Holes
import Debugger.Proofs.IntegerLiterals

/-!
String literals without names and holes. Up to the quotation mark that ends it, such a literal is
written in items, each of which stands for one character.
-/

namespace Debugger.Syntax

open Text

/-- What a character stands for behind a backslash. -/
def escapes : List (Char × Char) :=
  [('n', '\n'), ('t', '\t'), ('r', '\r'), ('b', '\x08'), ('0', '\x00'), ('\\', '\\'), ('"', '"'),
    ('\'', '\''), ('$', '$')]

/-- How one character of a string can be written: as it is, escaped, or as its code in four places,
where one of these `signs` may stand in front of the digits. -/
inductive StringItem (signs : List (List Char)) : List Char → Char → Prop
  | plain {c : Char} (h : c ∉ ['"', '\\', '\n']) : StringItem signs [c] c
  | escaped {c value : Char} (h : (c, value) ∈ escapes) : StringItem signs ['\\', c] value
  | code {sign digits : List Char} {value : Char} (hsign : sign ∈ signs)
    (hplaces : (sign ++ digits).length = 4) (hdigits : digits.all (isDigitOf 16) = true)
    (hvalue : value.toNat = Nat.ofDigits 16 (digits.reverse.map digitValue)) :
    StringItem signs ('\\' :: 'u' :: (sign ++ digits)) value

/-- How the characters of a string can be written. -/
inductive StringBody (signs : List (List Char)) : List Char → List Char → Prop
  | nil : StringBody signs [] []
  | cons {written body values : List Char} {value : Char} (item : StringItem signs written value)
    (rest : StringBody signs body values) : StringBody signs (written ++ body) (value :: values)

/-- Whether each dollar sign, up to the quotation mark that ends a literal, is escaped. The mark
tells whether a backslash stands in front of the text. -/
def dollarsEscaped : Bool → List Char → Bool
  | _, [] => true
  | true, _ :: cs => dollarsEscaped false cs
  | false, c :: cs =>
    c = '"' || (c ≠ '$' && dollarsEscaped (c = '\\') cs)

/-! ### Escapes -/

theorem simpleEscape_eq_some {c value : Char} :
    simpleEscape c = some value ↔ (c, value) ∈ escapes := by
  constructor
  · intro h
    obtain ⟨before, after, hentry, -⟩ := List.lookup_eq_some_iff.mp h
    rw [escapes, hentry]
    exact List.mem_append_right before List.mem_cons_self
  · intro h
    have hall : ∀ e ∈ escapes, simpleEscape e.1 = some e.2 := by decide
    exact hall _ h

/-- The number of at most four hexadecimal digits has 16 bits. -/
theorem ofDigits_lt {digits : List Char} (hdigits : digits.all (isDigitOf 16) = true)
    (hlength : digits.length ≤ 4) : ofDigits 16 digits < 0x10000 := by
  have hlt : ∀ d ∈ digits.reverse.map digitValue, d < 16 := by
    intro d hd
    obtain ⟨c, hc, rfl⟩ := List.mem_map.mp hd
    exact of_decide_eq_true (List.all_eq_true.mp hdigits c (List.mem_reverse.mp hc))
  have hpow := Nat.ofDigits_lt_base_pow_length (by decide) hlt
  rw [← ofDigits_eq, List.length_map, List.length_reverse] at hpow
  calc ofDigits 16 digits < 16 ^ digits.length := hpow
    _ ≤ 16 ^ 4 := Nat.pow_le_pow_right (by decide) hlength

/-- Four places are read as the code of a character if and only if they are digits, behind a sign or
not, and write the code; no character has the code of a surrogate. -/
theorem codeEscape_iff {ds : List Char} (hplaces : ds.length = 4) {value : Char} :
    codeEscape ds = some value ↔ ∃ sign ∈ signs, ∃ digits, ds = sign ++ digits ∧
      digits.all (isDigitOf 16) = true ∧
        value.toNat = Nat.ofDigits 16 (digits.reverse.map digitValue) := by
  constructor
  · intro h
    simp only [codeEscape] at h
    obtain ⟨sign, hsign, hds⟩ := exists_sign ds
    generalize (if ds.head? = some '+' then ds.tail else ds) = digits at h hds
    subst hds
    rw [Option.ite_none_right_eq_some, Bool.and_eq_true] at h
    obtain ⟨⟨hdigits, hscalar⟩, h⟩ := h
    have hlt : ofDigits 16 digits < 0x10000 := by
      refine ofDigits_lt hdigits ?_
      rw [List.length_append] at hplaces
      omega
    have hvalid : (ofDigits 16 digits).isValidChar := by
      simp only [Bool.or_eq_true, decide_eq_true_eq] at hscalar
      exact hscalar.imp_right fun hhigh => ⟨hhigh, by omega⟩
    refine ⟨sign, hsign, digits, rfl, hdigits, ?_⟩
    rw [← Option.some.inj h, Char.ofNat, dif_pos hvalid, ← ofDigits_eq]
    rfl
  · rintro ⟨sign, hsign, digits, rfl, hdigits, hvalue⟩
    rw [← ofDigits_eq] at hvalue
    have hscalar : value.toNat < 0xD800 ∨ 0xDFFF < value.toNat :=
      value.valid.imp_right And.left
    simp only [codeEscape]
    rw [unsigned_append hsign hdigits (by decide), hdigits, ← hvalue, Bool.true_and,
      if_pos (by simpa using hscalar), Char.ofNat_toNat]

/-! ### Items -/

namespace StringItem

variable {written rest : List Char} {value : Char}

theorem of_scanEscape {start cs : List Char} (h : scanEscape start cs = .ok (value, rest)) :
    ∃ written, '\\' :: cs = written ++ rest ∧ StringItem signs written value := by
  unfold scanEscape at h
  split at h
  · contradiction
  · rename_i c more
    split at h
    · rename_i hc
      subst hc
      split at h
      · rename_i d₁ d₂ d₃ d₄ after
        split at h
        · rename_i hcode
          cases h
          obtain ⟨sign, hsign, digits, hds, hdigits, hvalue⟩ := (codeEscape_iff rfl).mp hcode
          refine ⟨'\\' :: 'u' :: (sign ++ digits), by simp [← hds], ?_⟩
          exact .code hsign (by rw [← hds]; rfl) hdigits hvalue
        · contradiction
      · contradiction
    · split at h
      · rename_i hsimple
        cases h
        exact ⟨['\\', c], rfl, .escaped (simpleEscape_eq_some.mp hsimple)⟩
      · contradiction

theorem dollarsEscaped_code {ds : List Char} (hds : ∀ d ∈ ds, isCodeDigit d = true) :
    dollarsEscaped false (ds ++ rest) = dollarsEscaped false rest := by
  induction ds with
  | nil => rfl
  | cons d ds ih =>
    obtain ⟨hd, hds⟩ := List.forall_mem_cons.mp hds
    have hne {c : Char} (hc : isCodeDigit c = false) : d ≠ c := by
      rintro rfl
      rw [hc] at hd
      contradiction
    have hquote : d ≠ '"' := hne (by decide)
    have hslash : d ≠ '\\' := hne (by decide)
    have hdollar : d ≠ '$' := hne (by decide)
    simpa [dollarsEscaped, hquote, hslash, hdollar] using ih hds

/-- Behind an item the dollar signs are escaped as in front of it. -/
theorem dollarsEscaped_rest (h : StringItem signs written value)
    (hdollars : dollarsEscaped false (written ++ rest) = true) :
    dollarsEscaped false rest = true := by
  cases h with
  | plain h =>
    simp only [List.mem_cons, List.not_mem_nil, or_false, not_or] at h
    simp [dollarsEscaped, h] at hdollars
    exact hdollars.2
  | escaped => simpa [dollarsEscaped] using hdollars
  | code hsign hplaces hdigits hvalue =>
    have hcode := (codeEscape_iff hplaces).mpr ⟨_, hsign, _, rfl, hdigits, hvalue⟩
    rw [← dollarsEscaped_code (codeEscape_digits hcode)]
    simpa [dollarsEscaped] using hdollars

/-- An item is scanned as the character that it stands for. -/
theorem scanString (h : StringItem signs written value)
    (hdollars : dollarsEscaped false (written ++ rest) = true) (start : List Char)
    (parts : List TemplatePart) (reversed : List Char) :
    scanString start parts reversed (written ++ rest) =
      scanString start parts (value :: reversed) rest := by
  cases h with
  | plain h =>
    simp only [List.mem_cons, List.not_mem_nil, or_false, not_or] at h
    obtain ⟨hquote, hslash, hline⟩ := h
    have hdollar : value ≠ '$' := by
      rintro rfl
      contradiction
    exact scanString_other start parts reversed hquote hslash hline hdollar rest
  | @escaped c value h =>
    have hcode : c ≠ 'u' := by
      rintro rfl
      revert h
      simp [escapes]
    refine scanString_backslash start parts reversed ?_
    simp [scanEscape, hcode, simpleEscape_eq_some.mpr h]
  | @code sign digits value hsign hplaces hdigits hvalue =>
    have hcode := (codeEscape_iff hplaces).mpr ⟨sign, hsign, digits, rfl, hdigits, hvalue⟩
    refine scanString_backslash start parts reversed ?_
    generalize sign ++ digits = ds at hplaces hcode
    obtain ⟨d₁, d₂, d₃, d₄, rfl⟩ := List.length_eq_four.mp hplaces
    simp [scanEscape, hcode]

end StringItem

namespace StringBody

variable {cs body values rest reversed : List Char} {parts : List TemplatePart}

/-- The body of a literal is scanned as the characters that it stands for. -/
theorem scanString (h : StringBody signs body values)
    (hdollars : dollarsEscaped false (body ++ '"' :: rest) = true) (start : List Char) :
    scanString start parts reversed (body ++ '"' :: rest) =
      .ok (closeString parts (values.reverse ++ reversed), rest) := by
  induction h generalizing reversed with
  | nil => exact scanString_close start parts reversed rest
  | cons item _ ih =>
    rw [List.append_assoc] at hdollars ⊢
    rw [item.scanString hdollars, ih (item.dollarsEscaped_rest hdollars), List.reverse_cons,
      List.append_assoc, List.singleton_append]

/-- What is scanned as a literal is the body of one, and the quotation mark behind it. -/
theorem of_scanString {start : List Char} {l : Lexeme}
    (h : Syntax.scanString start parts reversed cs = .ok (l, rest))
    (hdollars : dollarsEscaped false cs = true) :
    ∃ body values, cs = body ++ '"' :: rest ∧ StringBody signs body values ∧
      l = closeString parts (values.reverse ++ reversed) := by
  fun_induction Syntax.scanString start parts reversed cs
  all_goals try contradiction
  case case3 =>
    cases h
    exact ⟨[], [], rfl, .nil, rfl⟩
  case case5 value after hescape _ _ ih =>
    obtain ⟨written, hcs, item⟩ := StringItem.of_scanEscape hescape
    rw [hcs] at hdollars
    obtain ⟨body, values, rfl, hbody, rfl⟩ := ih h (item.dollarsEscaped_rest hdollars)
    exact ⟨written ++ body, value :: values, by rw [hcs, List.append_assoc], .cons item hbody,
      by simp⟩
  case case11 c cs hline hquote hslash _ ih =>
    have item : StringItem signs [c] c := .plain (by simp [hline, hquote, hslash])
    obtain ⟨body, values, rfl, hbody, rfl⟩ := ih h (item.dollarsEscaped_rest hdollars)
    exact ⟨[c] ++ body, c :: values, rfl, .cons item hbody, by simp⟩

end StringBody

/-- A text without dollar signs, other than escaped ones, begins with a string literal if and only
if it is one body behind the quotation mark, up to the next; the literal is the string of the
characters that the body stands for. In front of the digits of a code stands a plus or nothing. -/
theorem stringLiteral_read {cs : List Char} (hdollars : dollarsEscaped false cs = true) (l : Lexeme)
    (rest : List Char) :
    scanLexeme ('"' :: cs) = .ok (l, rest) ↔ ∃ body values, cs = body ++ '"' :: rest ∧
      StringBody signs body values ∧ l = .literal (.string (String.ofList values)) := by
  have hclose (values : List Char) :
      closeString [] (values.reverse ++ []) = .literal (.string (String.ofList values)) := by
    simp [closeString]
  constructor
  · intro h
    obtain ⟨body, values, hcs, hbody, hl⟩ := StringBody.of_scanString h hdollars
    exact ⟨body, values, hcs, hbody, hl.trans (hclose values)⟩
  · rintro ⟨body, values, rfl, hbody, rfl⟩
    rw [← hclose]
    exact hbody.scanString hdollars ('"' :: (body ++ '"' :: rest))

/-- An escaped dollar sign, an escaped tabulator, and a digit and a letter by their codes. -/
theorem stringLiteral_read_escapes :
    scanLexeme "\"\\$\\t\\u0031\\u00E9\" + x".toList =
      .ok (.literal (.string "$\t1é"), " + x".toList) := by
  refine (stringLiteral_read (by decide) _ _).mpr
    ⟨['\\', '$'] ++ (['\\', 't'] ++ ("\\u0031".toList ++ ("\\u00E9".toList ++ []))),
      ['$', '\t', '1', 'é'], rfl, ?_, rfl⟩
  refine .cons (.escaped (by decide)) (.cons (.escaped (by decide)) (.cons ?_ (.cons ?_ .nil)))
  · exact @StringItem.code _ [] "0031".toList _ (by decide) rfl (by decide) rfl
  · exact @StringItem.code _ [] "00E9".toList _ (by decide) rfl (by decide) rfl

/-- With a plus in front of three digits a code is read, although it has not four digits. -/
theorem stringLiteral_signed :
    dollarsEscaped false "\\u+041\"".toList = true ∧
      scanLexeme "\"\\u+041\"".toList = .ok (.literal (.string "A"), []) ∧
      ∀ body values rest, "\\u+041\"".toList = body ++ '"' :: rest →
        ¬ StringBody [[]] body values := by
  have item : StringItem signs "\\u+041".toList 'A' :=
    @StringItem.code _ ['+'] "041".toList _ (by decide) rfl (by decide) rfl
  have hdollars : dollarsEscaped false "\\u+041\"".toList = true := by decide
  have hread : scanLexeme "\"\\u+041\"".toList = .ok (.literal (.string "A"), []) :=
    (StringBody.cons item .nil).scanString hdollars _
  refine ⟨hdollars, hread, fun body values rest hcs hbody => ?_⟩
  replace hcs : ['\\', 'u', '+', '0', '4', '1', '"'] = body ++ '"' :: rest := hcs
  cases hbody with
  | nil => exact absurd (List.head_eq_of_cons_eq hcs) (by decide)
  | @cons written body values value item _ =>
    rw [List.append_assoc] at hcs
    cases item with
    | plain h =>
      obtain ⟨rfl, -⟩ := List.cons.inj hcs
      contradiction
    | escaped h =>
      obtain ⟨rfl, -⟩ := List.cons.inj (List.cons.inj hcs).2
      revert h
      simp [escapes]
    | @code sign digits _ hsign hplaces hdigits =>
      obtain rfl : sign = [] := List.mem_singleton.mp hsign
      obtain ⟨d, digits, rfl⟩ := List.exists_cons_of_length_eq_add_one hplaces
      obtain ⟨rfl, -⟩ := List.cons.inj (List.cons.inj (List.cons.inj hcs).2).2
      contradiction

end Debugger.Syntax
