import Mathlib.Data.List.Basic
import Debugger.Syntax.Lexer
import Debugger.Proofs.Printing

/-!
Splitting a text back into the lexemes it was made of: what is written of a lexeme is read as that
lexeme alone, up to the space behind it.
-/

namespace Debugger.Syntax

open Text

/-- The text ends or goes on with a space. -/
inductive Spaced : List Char → Prop
  | nil : Spaced []
  | space (cs : List Char) : Spaced (' ' :: cs)

/-! ### Words -/

/-- What does not hold of a list of codes does not hold of a character with one of them. -/
theorem eq_false_of_code {p : Char → Bool} (codes : List Nat) {c : Char} (hc : c.toNat ∈ codes)
    (hcodes : ∀ n ∈ codes, p (Char.ofNat n) = false) : p c = false := by
  have := hcodes c.toNat hc
  rwa [Char.ofNat_toNat] at this

theorem isIdentifierContinue_of_isBlank {c : Char} (h : isBlank c = true) :
    isIdentifierContinue c = false := by
  refine eq_false_of_code (List.range' 0x9 5 ++ [0x20, 0x85, 0xA0, 0x1680] ++
    List.range' 0x2000 11 ++ [0x2028, 0x2029, 0x202F, 0x205F, 0x3000]) ?_ (by decide +kernel)
  simp [isBlank] at h
  simp
  omega

theorem isIdentifierStart_of_isBlank {c : Char} (h : isBlank c = true) :
    isIdentifierStart c = false := by
  have hcontinue := isIdentifierContinue_of_isBlank h
  simp only [isIdentifierContinue, Bool.or_eq_false_iff] at hcontinue
  exact hcontinue.1.1

theorem code_of_isDigit {c : Char} (h : c.isDigit = true) : 48 ≤ c.toNat ∧ c.toNat ≤ 57 := by
  simpa [Char.isDigit, UInt32.le_iff_toNat_le] using h

theorem isIdentifierStart_of_isDigit {c : Char} (h : c.isDigit = true) :
    isIdentifierStart c = false := by
  refine eq_false_of_code (List.range' 48 10) ?_ (by decide +kernel)
  exact List.mem_range'_1.mpr (by have := code_of_isDigit h; omega)

theorem isBlank_of_isDigit {c : Char} (h : c.isDigit = true) : isBlank c = false := by
  have := code_of_isDigit h
  simp [isBlank]
  omega

/-- A run of characters is taken up to one that is not of its kind. -/
theorem takeWhile_stopped {p : Char → Bool} {cs rest : List Char} (hcs : cs.all p)
    (hrest : rest.head?.any p = false) :
    (cs ++ rest).takeWhile p = cs ∧ (cs ++ rest).dropWhile p = rest := by
  rw [List.takeWhile_append_of_pos (by simpa using hcs),
    List.dropWhile_append_of_pos (by simpa using hcs)]
  cases rest with
  | nil => simp
  | cons c rest =>
    have hc : p c = false := by simpa using hrest
    simp [hc]

theorem Spaced.head {cs : List Char} (h : Spaced cs) {p : Char → Bool} (hp : p ' ' = false) :
    cs.head?.any p = false := by
  cases h with
  | nil => rfl
  | space cs => exact hp

/-- A word is read up to where nothing goes on with it. -/
theorem scanLexeme_word {w : String} (h : isWord w = true) :
    ∃ c cs, w.toList = c :: cs ∧ isBlank c = false ∧ isIdentifierStart c = true ∧
      ∀ rest, rest.head?.any isIdentifierContinue = false →
        scanLexeme (c :: (cs ++ rest)) = .ok (.ofWord w, rest) := by
  obtain ⟨c, cs, hcs⟩ : ∃ c cs, w.toList = c :: cs := by
    refine List.exists_cons_of_ne_nil fun hnil => ?_
    simp [isWord, hnil] at h
  obtain ⟨hc, hall⟩ : isIdentifierStart c = true ∧ cs.all isIdentifierContinue = true := by
    simp [isWord, hcs] at h
    simpa using ⟨h.1, h.2.2⟩
  have hquote : c ≠ '"' ∧ c ≠ '\'' := by
    constructor <;> rintro rfl <;> exact absurd hc (by decide)
  have hdigit : c.isDigit = false := by
    refine Bool.eq_false_iff.mpr fun hd => ?_
    rw [isIdentifierStart_of_isDigit hd] at hc
    contradiction
  refine ⟨c, cs, hcs, ?_, hc, fun rest hrest => ?_⟩
  · refine Bool.eq_false_iff.mpr fun hb => ?_
    rw [isIdentifierStart_of_isBlank hb] at hc
    contradiction
  · obtain ⟨htake, hdrop⟩ := takeWhile_stopped hall hrest
    simp only [scanLexeme, if_neg hquote.1, if_neg hquote.2, hdigit, hc, htake, hdrop, ← hcs,
      String.ofList_toList]
    rfl

/-- What is written of a lexeme begins without a blank and is read as that lexeme. -/
def Lexeme.Legible (l : Lexeme) : Prop :=
  ∃ c cs, l.written.toList = c :: cs ∧ isBlank c = false ∧
    ∀ rest, Spaced rest → scanLexeme (c :: (cs ++ rest)) = .ok (l, rest)

theorem legible_word {l : Lexeme} (hl : .ofWord l.written = l) (hw : isWord l.written = true) :
    l.Legible := by
  obtain ⟨c, cs, hcs, hc, -, hscan⟩ := scanLexeme_word hw
  refine ⟨c, cs, hcs, hc, fun rest h => ?_⟩
  rw [hscan rest (h.head (by decide)), hl]

theorem ofWord_name {n : String} (hn : isName n = true) : Lexeme.ofWord n = .ident n := by
  obtain ⟨-, hfree⟩ : isWord n = true ∧ Lexeme.reserved.lookup n = none := by
    simpa [isName] using hn
  rw [Lexeme.ofWord, hfree]
  rfl

theorem isWord_of_isName {n : String} (hn : isName n = true) : isWord n = true := by
  simp only [isName, Bool.and_eq_true] at hn
  exact hn.1

theorem legible_name {n : String} (hn : isName n = true) : (Lexeme.ident n).Legible :=
  legible_word (ofWord_name hn) (isWord_of_isName hn)

theorem legible_symbol (s : Symbol) : (Lexeme.symbol s).Legible := by
  cases s <;> exact ⟨_, _, rfl, rfl, fun rest h => by cases h <;> rfl⟩

/-! ### Integers -/

theorem takeDigits_append {ds tail : List Char} (hds : ∀ d ∈ ds, d.isDigit = true)
    (htail : takeDigits 10 tail = ([], tail)) : takeDigits 10 (ds ++ tail) = (ds, tail) := by
  induction ds with
  | nil => exact htail
  | cons d ds ih =>
    obtain ⟨hd, hds⟩ := List.forall_mem_cons.mp hds
    rw [List.cons_append, takeDigits, if_pos (isDigitOf_ten hd), ih hds]

theorem ofDigits_toDigits (n : Nat) : ofDigits 10 (Nat.toDigits 10 n) = n := by
  refine Eq.trans ?_ (Nat.ofDigitChars_toDigits (by decide : 1 < 10) (by decide))
  refine List.foldl_ext _ _ 0 fun m d hd => ?_
  have hdigit := Nat.isDigit_of_mem_toDigits (by decide) (by decide) hd
  rw [digitValue, if_pos hdigit, Nat.mul_comm]

theorem radixPrefix_digits {c : Char} {ds tail : List Char} (hds : ∀ d ∈ ds, d.isDigit = true)
    (htail : ∀ a, radixPrefix (a :: tail) = none) : radixPrefix (c :: (ds ++ tail)) = none := by
  cases ds with
  | nil => exact htail c
  | cons d ds =>
    have hd := hds d List.mem_cons_self
    have hmark : ∀ m ∈ ['x', 'X', 'b', 'B'], d ≠ m := by
      rintro m hm rfl
      simp only [List.mem_cons, List.not_mem_nil, or_false] at hm
      rcases hm with rfl | rfl | rfl | rfl <;> contradiction
    simp only [List.mem_cons, List.not_mem_nil, or_false, forall_eq_or_imp, forall_eq] at hmark
    obtain ⟨hx, hX, hb, hB⟩ := hmark
    simp only [List.cons_append, radixPrefix, hx, hX, hb, hB, decide_false, Bool.or_self,
      Bool.false_eq_true, if_false]
    split <;> rfl

/-- What can stand behind the digits of an integer: no other part of a number. -/
structure EndsNumber (tail : List Char) : Prop where
  digits : takeDigits 10 tail = ([], tail)
  radix : ∀ a, radixPrefix (a :: tail) = none
  point : tail.head? ≠ some '.'

theorem Spaced.endsNumber {rest : List Char} (h : Spaced rest) : EndsNumber rest := by
  cases h with
  | nil => exact ⟨rfl, fun _ => rfl, by simp⟩
  | space cs => exact ⟨rfl, fun a => by simp [radixPrefix], by simp⟩

theorem endsNumber_long (rest : List Char) : EndsNumber ('L' :: rest) :=
  ⟨rfl, fun a => by simp [radixPrefix], by simp⟩

theorem isDigit_toDigits {n : Nat} {d : Char} (hd : d ∈ Nat.toDigits 10 n) : d.isDigit = true :=
  Nat.isDigit_of_mem_toDigits (by decide) (by decide) hd

theorem radixPrefix_toDigits (n : Nat) {tail : List Char} (h : EndsNumber tail) :
    radixPrefix (Nat.toDigits 10 n ++ tail) = none := by
  cases hcs : Nat.toDigits 10 n with
  | nil => exact absurd hcs Nat.toDigits_ne_nil
  | cons c ds =>
    have hds : ∀ d ∈ ds, d.isDigit = true := fun d hd =>
      isDigit_toDigits (hcs ▸ List.mem_cons_of_mem c hd)
    exact radixPrefix_digits hds h.radix

theorem scanDigits_toDigits (n : Nat) {tail : List Char} (h : EndsNumber tail) :
    scanDigits (Nat.toDigits 10 n ++ tail) = (⟨n, 0, false⟩, tail) := by
  have htake := takeDigits_append (fun _ => isDigit_toDigits (n := n)) h.digits
  simp only [scanDigits, htake, ofDigits_toDigits]
  split
  · rename_i p d more
    have hp : p ≠ '.' := by simpa using h.point
    simp [hp]
  · rfl

theorem scanNumber_int {n : Nat} (hn : n ≤ maxLong) {rest : List Char} (h : Spaced rest) :
    scanNumber (Nat.toDigits 10 n ++ rest) = .ok (integerLexeme (Int64.ofInt n) false, rest) := by
  have hsuffix (start : List Char) (m : Numeral) : scanSuffix start m rest = none := by
    cases h <;> rfl
  have hexponent : exponentDigits rest = none := by
    cases h with
    | nil => rfl
    | space cs => cases cs <;> rfl
  simp only [scanNumber, radixPrefix_toDigits n h.endsNumber, scanDecimal,
    scanDigits_toDigits n h.endsNumber, hsuffix, scanExponent, hexponent, finishNumber, hn,
    if_pos, Bool.false_eq_true, if_false]

theorem scanNumber_long {n : Nat} (hn : n ≤ maxLong) (rest : List Char) :
    scanNumber (Nat.toDigits 10 n ++ 'L' :: rest) =
      .ok (.literal (.long (Int64.ofInt n)), rest) := by
  simp only [scanNumber, radixPrefix_toDigits n (endsNumber_long rest), scanDecimal,
    scanDigits_toDigits n (endsNumber_long rest), scanSuffix, hn, if_pos]
  rfl

theorem scanLexeme_of_isDigit {c : Char} (hc : c.isDigit = true) (cs : List Char) :
    scanLexeme (c :: cs) = scanNumber (c :: cs) := by
  have hquote : c ≠ '"' ∧ c ≠ '\'' := by
    constructor <;> rintro rfl <;> exact absurd hc (by decide)
  rw [scanLexeme, if_neg hquote.1, if_neg hquote.2, if_pos hc]

/-- A mark may stand between the digits and the space. -/
theorem legible_number {l : Lexeme} (n : Nat) (mark : List Char)
    (hwritten : l.written.toList = Nat.toDigits 10 n ++ mark)
    (hscan : ∀ rest, Spaced rest →
      scanNumber (Nat.toDigits 10 n ++ (mark ++ rest)) = .ok (l, rest)) : l.Legible := by
  obtain ⟨c, cs, hcs⟩ := List.exists_cons_of_ne_nil (Nat.toDigits_ne_nil (n := n) (b := 10))
  have hc : c.isDigit = true := isDigit_toDigits (hcs ▸ List.mem_cons_self)
  rw [hcs] at hwritten hscan
  refine ⟨c, cs ++ mark, hwritten, isBlank_of_isDigit hc, fun rest h => ?_⟩
  rw [scanLexeme_of_isDigit hc, List.append_assoc]
  exact hscan rest h

theorem toList_toString {x : Int} (hx : 0 ≤ x) :
    (toString x).toList = Nat.toDigits 10 x.toNat := by
  obtain ⟨n, rfl⟩ := Int.eq_ofNat_of_zero_le hx
  rw [show toString (n : Int) = toString n from rfl, Nat.toString_eq_ofList_toDigits,
    String.toList_ofList]
  rfl

theorem legible_int {v : Int32} (hv : 0 ≤ v.toInt) : (Lexeme.literal (.int v)).Legible := by
  have hlt := v.toInt_lt
  have hn : (v.toInt.toNat : Int) = v.toInt := Int.toNat_of_nonneg hv
  refine legible_number v.toInt.toNat [] ?_ fun rest h => ?_
  · rw [List.append_nil]
    exact toList_toString hv
  · have hmax : v.toInt.toNat ≤ maxLong := by
      rw [show maxLong = 9223372036854775807 from rfl]
      omega
    have hvalue : (Int64.ofInt v.toInt).toInt = v.toInt := by
      refine Int64.toInt_ofInt_of_le ?_ ?_ <;> omega
    rw [List.nil_append, scanNumber_int hmax h, hn]
    simp only [integerLexeme, hvalue, Int32.ofInt_toInt, Bool.not_false, Bool.true_and,
      decide_true, if_pos]

theorem legible_long {v : Int64} (hv : 0 ≤ v.toInt) : (Lexeme.literal (.long v)).Legible := by
  have hlt := v.toInt_lt
  have hn : (v.toInt.toNat : Int) = v.toInt := Int.toNat_of_nonneg hv
  refine legible_number v.toInt.toNat ['L'] ?_ fun rest h => ?_
  · have hwritten : (Lexeme.literal (.long v)).written = toString v.toInt ++ "L" := rfl
    rw [hwritten, String.toList_append, toList_toString hv]
    rfl
  · have hmax : v.toInt.toNat ≤ maxLong := by
      rw [show maxLong = 9223372036854775807 from rfl]
      omega
    rw [List.singleton_append, scanNumber_long hmax, hn, Int64.ofInt_toInt]

/-! ### Texts -/

theorem tokensFrom_eq (size : Nat) (cs : List Char) :
    tokensFrom size cs = match cs.dropWhile isBlank with
      | [] => .ok [⟨.eof, size⟩]
      | c :: more => match scanLexeme (c :: more) with
        | .error fault => .error (.lexical fault.cause (size - byteLength fault.rest))
        | .ok (l, rest) =>
          (tokensFrom size rest).map (⟨l, size - byteLength (c :: more)⟩ :: ·) := by
  rw [tokensFrom]
  split
  · rename_i hdrop
    rw [hdrop]
  · rename_i c more hdrop
    rw [hdrop]
    dsimp only
    split
    · rename_i fault hscan
      rw [hscan]
    · rename_i l rest hscan
      rw [hscan]
      dsimp only
      cases tokensFrom size rest <;> rfl

theorem tokensFrom_blank (size : Nat) {b : Char} (hb : isBlank b = true) (cs : List Char) :
    tokensFrom size (b :: cs) = tokensFrom size cs := by
  rw [tokensFrom_eq, List.dropWhile_cons_of_pos hb, ← tokensFrom_eq]

/-- The text from a place on is read as these lexemes. -/
def Spells (cs : List Char) (ls : List Lexeme) : Prop :=
  ∀ size, ∃ tokens, tokensFrom size cs = .ok tokens ∧ tokens.map (·.lexeme) = ls

theorem spells_nil : Spells [] [.eof] :=
  fun size => ⟨_, tokensFrom_eq size [], rfl⟩

theorem Spells.blank {cs : List Char} {ls : List Lexeme} (h : Spells cs ls) :
    Spells (' ' :: cs) ls := by
  intro size
  rw [tokensFrom_blank size (by decide)]
  exact h size

theorem Spells.scan {c : Char} {cs rest : List Char} {l : Lexeme} {ls : List Lexeme}
    (h : Spells rest ls) (hb : isBlank c = false) (hscan : scanLexeme (c :: cs) = .ok (l, rest)) :
    Spells (c :: cs) (l :: ls) := by
  intro size
  obtain ⟨tokens, htokens, hlexemes⟩ := h size
  refine ⟨⟨l, size - byteLength (c :: cs)⟩ :: tokens, ?_, congrArg (l :: ·) hlexemes⟩
  rw [tokensFrom_eq, List.dropWhile_cons_of_neg (Bool.eq_false_iff.mp hb)]
  simp only [hscan, htokens]
  rfl

/-- The text is read as the lexemes in front of a space and at the end. -/
def Spelled (s : String) (ls : List Lexeme) : Prop :=
  ∀ rest ms, Spaced rest → Spells rest ms → Spells (s.toList ++ rest) (ls ++ ms)

theorem Lexeme.Legible.spelled {l : Lexeme} (h : l.Legible) : Spelled l.written [l] := by
  obtain ⟨c, cs, hcs, hc, hscan⟩ := h
  intro rest ms hrest hms
  rw [hcs]
  exact hms.scan hc (hscan rest hrest)

theorem Spelled.space {s t : String} {ls ms : List Lexeme} (hs : Spelled s ls)
    (ht : Spelled t ms) : Spelled (s ++ " " ++ t) (ls ++ ms) := by
  intro rest ns hrest hns
  rw [String.toList_append, String.toList_append, List.append_assoc, List.append_assoc,
    List.append_assoc]
  exact hs _ _ (.space _) (ht rest ns hrest hns).blank

/-- Lexemes with single spaces between them are read one after the other. -/
theorem spelled_written {ls : List Lexeme} (hne : ls ≠ []) (h : ∀ l ∈ ls, l.Legible) :
    Spelled (" ".intercalate (ls.map (·.written))) ls := by
  induction ls with
  | nil => contradiction
  | cons l ls ih =>
    obtain ⟨hl, hls⟩ := List.forall_mem_cons.mp h
    cases ls with
    | nil => exact hl.spelled
    | cons l' ls =>
      rw [List.map_cons, List.map_cons, String.intercalate_cons_cons]
      exact hl.spelled.space (ih (List.cons_ne_nil l' ls) hls)

theorem Spelled.tokenize {s : String} {ls : List Lexeme} (h : Spelled s ls) :
    ∃ tokens, tokenize s = .ok tokens ∧ tokens.map (·.lexeme) = ls ++ [.eof] := by
  have hspells := h [] [.eof] .nil spells_nil
  rw [List.append_nil] at hspells
  exact hspells _

theorem tokenize_written {ls : List Lexeme} (h : ∀ l ∈ ls, l.Legible) :
    ∃ tokens, tokenize (" ".intercalate (ls.map (·.written))) = .ok tokens ∧
      tokens.map (·.lexeme) = ls ++ [.eof] := by
  cases ls with
  | nil => exact spells_nil _
  | cons l ls => exact (spelled_written (List.cons_ne_nil l ls) h).tokenize

/-! ### Trees -/

theorem legible_notInside : (Lexeme.keyword .notInside).Legible :=
  ⟨'!', ['i', 'n'], rfl, rfl, fun rest h => by cases h <;> rfl⟩

theorem legible_binaryOp (words : Bool) (op : BinaryOp) : (op.lexeme words).Legible := by
  cases op
  case shl | shr | ushr => exact legible_name (by decide)
  case bitAnd | bitXor | bitOr =>
    cases words
    · exact legible_symbol _
    · exact legible_name (by decide)
  all_goals exact legible_symbol _

theorem legible_rangeKind (kind : RangeKind) : kind.lexeme.Legible := by
  cases kind with
  | closed => exact legible_symbol .dotDot
  | «until» | downTo => exact legible_name (by decide)

theorem legible_within {ls : List Lexeme} (h : ∀ l ∈ ls, l.Legible) (limit rank : Nat) :
    ∀ l ∈ within limit rank ls, l.Legible := by
  unfold within
  split
  · exact h
  · simp only [List.forall_mem_cons, List.forall_mem_append]
    exact ⟨legible_symbol .lparen, h, legible_symbol .rparen, nofun⟩

theorem legible_arguments {words : Bool} {args : List Expr}
    (h : ∀ a ∈ args, ∀ l ∈ a.lexemes words, l.Legible) :
    ∀ l ∈ argumentLexemes words args, l.Legible := by
  induction args with
  | nil => exact nofun
  | cons a more ih =>
    obtain ⟨ha, hmore⟩ := List.forall_mem_cons.mp h
    cases more with
    | nil => exact ha
    | cons b more =>
      rw [argumentLexemes_cons]
      simp only [List.forall_mem_cons, List.forall_mem_append]
      exact ⟨ha, legible_symbol .comma, ih hmore⟩

theorem Expr.Plain.legible (words : Bool) {e : Expr} (h : e.Plain) :
    ∀ l ∈ e.lexemes words, l.Legible := by
  induction h with
  | int nonneg => exact List.forall_mem_singleton.mpr (legible_int nonneg)
  | long nonneg => exact List.forall_mem_singleton.mpr (legible_long nonneg)
  | bool b => cases b <;> exact List.forall_mem_singleton.mpr (legible_word rfl (by decide))
  | null | this => exact List.forall_mem_singleton.mpr (legible_word rfl (by decide))
  | name named => exact List.forall_mem_singleton.mpr (legible_name named)
  | unary op operand ho =>
    refine List.forall_mem_cons.mpr ⟨?_, legible_within ho 2 _⟩
    cases op <;> exact legible_symbol _
  | binary op left right hl hr =>
    simp only [Expr.lexemes, List.forall_mem_append, List.forall_mem_cons]
    exact ⟨legible_within hl _ _, legible_binaryOp words op, legible_within hr _ _⟩
  | elvis left right hl hr =>
    simp only [Expr.lexemes, List.forall_mem_append, List.forall_mem_cons]
    exact ⟨legible_within hl _ _, legible_symbol .elvis, legible_within hr _ _⟩
  | conditional condition first second hc hyes hno =>
    simp only [Expr.lexemes, List.forall_mem_append, List.forall_mem_cons]
    exact ⟨legible_within hc _ _, legible_symbol .question, hyes, legible_symbol .colon, hno⟩
  | contains negated element whole he hw =>
    simp only [Expr.lexemes, List.forall_mem_append, List.forall_mem_cons]
    refine ⟨legible_within he _ _, ?_, legible_within hw _ _⟩
    cases negated
    · exact legible_word rfl (by decide)
    · exact legible_notInside
  | range kind first last ha hb =>
    simp only [Expr.lexemes, List.forall_mem_append, List.forall_mem_cons]
    exact ⟨legible_within ha _ _, legible_rangeKind kind, legible_within hb _ _⟩
  | stepped kind first last step ha hb hs =>
    simp only [Expr.lexemes, List.forall_mem_append, List.forall_mem_cons]
    exact ⟨legible_within ha _ _, legible_rangeKind kind, legible_within hb _ _,
      legible_name (by decide), legible_within hs _ _⟩
  | index target place ht hp =>
    simp only [Expr.lexemes, List.forall_mem_append, List.forall_mem_cons]
    exact ⟨legible_within ht _ _, legible_symbol .lbracket, hp, legible_symbol .rbracket, nofun⟩
  | member safe target named ht =>
    simp only [Expr.lexemes, List.forall_mem_append, List.forall_mem_cons]
    exact ⟨legible_within ht _ _, legible_symbol _, legible_name named, nofun⟩
  | call named lower passed hargs =>
    simp only [Expr.lexemes, List.forall_mem_append, List.forall_mem_cons]
    exact ⟨legible_name named, legible_symbol .lparen, legible_arguments hargs,
      legible_symbol .rparen, nofun⟩
  | callOn safe receiver named lower passed hr hargs =>
    simp only [Expr.lexemes, List.forall_mem_append, List.forall_mem_cons]
    exact ⟨legible_within hr _ _, legible_symbol _, legible_name named, legible_symbol .lparen,
      legible_arguments hargs, legible_symbol .rparen, nofun⟩

end Debugger.Syntax
