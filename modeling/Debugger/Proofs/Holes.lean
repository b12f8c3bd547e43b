import Debugger.Proofs.Braces
import Debugger.Proofs.MessageTemplates

/-!
Expressions as holes of a template. A hole is read up to the brace that closes it, by counting
braces and quotation marks in its source, which is not split into lexemes for that.
-/

namespace Debugger.Syntax

open Text

/-! ### States along a source -/

namespace HoleState

/-- Where the reading of a hole stands behind a character; at the brace that ends it, nowhere. -/
def next : HoleState → Char → Option HoleState
  | .escaped depth, _ => some (.quoted depth)
  | .quoted depth, c =>
    some (if c = '\\' then .escaped depth else if c = '"' then .code depth else .quoted depth)
  | .code depth, c =>
    if c = '\x7d' && depth = 0 then none
    else some (if c = '\x7d' then .code (depth - 1) else if c = '\x7b' then .code (depth + 1)
      else if c = '"' then .quoted depth else .code depth)

/-- Where the reading of a hole stands behind a text that does not end it. -/
def through (state : HoleState) (cs : List Char) : Option HoleState :=
  cs.foldlM next state

theorem through_cons {state after : HoleState} {c : Char} (h : state.next c = some after)
    (cs : List Char) : through state (c :: cs) = through after cs := by
  rw [through, List.foldlM_cons, h]
  rfl

end HoleState

open HoleState

theorem takeHole_cons (state : HoleState) (c : Char) (cs : List Char) :
    takeHole state (c :: cs) = match state.next c with
      | none => some ([], cs)
      | some after => (takeHole after cs).map fun (source, rest) => (c :: source, rest) := by
  cases state with
  | escaped depth | quoted depth => rfl
  | code depth =>
    simp only [takeHole, next]
    split <;> rfl

/-- A text that does not end a hole is taken as it is. -/
theorem passesBy_through {state after : HoleState} {cs : List Char}
    (h : through state cs = some after) : PassesBy state cs after := by
  induction cs generalizing state with
  | nil =>
    cases h
    exact fun rest => by simp
  | cons c cs ih =>
    obtain ⟨middle, hnext, hthrough⟩ := Option.bind_eq_some_iff.mp h
    have hfirst : PassesBy state [c] middle := by
      intro rest
      rw [List.singleton_append, takeHole_cons, hnext]
      rfl
    exact hfirst.append (ih hthrough)

/-- A hole that is taken has nothing in it that would end it. -/
theorem through_of_takeHole {state : HoleState} {cs source rest : List Char}
    (h : takeHole state cs = some (source, rest)) : through state source = some (.code 0) := by
  induction cs generalizing state source with
  | nil => cases state <;> contradiction
  | cons c cs ih =>
    rw [takeHole_cons] at h
    cases hnext : state.next c with
    | none =>
      rw [hnext] at h
      cases h
      cases state with
      | escaped | quoted => contradiction
      | code depth =>
        have hend : depth = 0 := by
          by_contra hne
          simp [next, hne] at hnext
        rw [hend]
        rfl
    | some after =>
      rw [hnext] at h
      obtain ⟨⟨source', rest'⟩, htake, he⟩ := Option.map_eq_some_iff.mp h
      cases he
      rw [through_cons hnext]
      exact ih htake

/-! ### A hole alone in a literal -/

/-- The first token of a text, and the ones behind it. -/
theorem tokensFrom_ok {size : Nat} {cs : List Char} {tokens : List Token}
    (h : tokensFrom size cs = .ok tokens) :
    (cs.dropWhile isBlank = [] ∧ tokens = [⟨.eof, size⟩]) ∨
      ∃ c more l rest offset others, cs.dropWhile isBlank = c :: more ∧
        scanLexeme (c :: more) = .ok (l, rest) ∧ tokensFrom size rest = .ok others ∧
        tokens = ⟨l, offset⟩ :: others := by
  rw [tokensFrom_eq] at h
  split at h
  · cases h
    exact .inl ⟨‹_›, rfl⟩
  · rename_i c more hdrop
    split at h
    · contradiction
    · rename_i l rest hscan
      cases hrest : tokensFrom size rest with
      | error cause =>
        rw [hrest] at h
        contradiction
      | ok others =>
        rw [hrest] at h
        cases h
        exact .inr ⟨c, more, l, rest, _, others, hdrop, hscan, hrest, rfl⟩

/-- The literal with one hole of this source and nothing else. -/
def holeText (source : String) : String :=
  "\"$\x7b" ++ source ++ "\x7d\""

/-- The literal is read as the template with this hole and nothing else. -/
def HoleReads (source : String) : Prop :=
  ∃ tokens, tokenize (holeText source) = .ok tokens ∧
    tokens.map (·.lexeme) = [.template [.hole source], .eof]

theorem toList_holeText (source : String) :
    (holeText source).toList = '"' :: '$' :: '\x7b' :: (source.toList ++ '\x7d' :: ['"']) := by
  simp [holeText]

/-- A source is read as the hole that it is if and only if it leaves the reading of the hole where
it began. -/
theorem holeReads_iff (source : String) :
    HoleReads source ↔ through (.code 0) source.toList = some (.code 0) := by
  constructor
  · rintro ⟨tokens, htokens, hlexemes⟩
    have hquote : (holeText source).toList.dropWhile isBlank = (holeText source).toList := by
      rw [toList_holeText, List.dropWhile_cons_of_neg (by decide)]
    obtain ⟨hnil, -⟩ | ⟨c, more, l, rest, offset, others, hdrop, hscan, -, rfl⟩ :=
      tokensFrom_ok htokens
    · rw [hquote, toList_holeText] at hnil
      contradiction
    obtain rfl : l = .template [.hole source] := List.head_eq_of_cons_eq hlexemes
    rw [← hdrop, hquote, toList_holeText] at hscan
    change scanString _ [] [] _ = _ at hscan
    cases htake : takeHole (.code 0) (source.toList ++ '\x7d' :: ['"']) with
    | none =>
      rw [scanString_openHole _ _ _ htake] at hscan
      contradiction
    | some taken =>
      obtain ⟨source', after⟩ := taken
      rw [scanString_hole _ _ _ htake] at hscan
      obtain ⟨more, hsame⟩ := scanString_template hscan (by simp)
      have hsource : source = String.ofList source' :=
        TemplatePart.hole.inj (List.head_eq_of_cons_eq (Lexeme.template.inj hsame))
      rw [hsource, String.toList_ofList]
      exact through_of_takeHole htake
  · intro h
    have htake : takeHole (.code 0) (source.toList ++ '\x7d' :: ['"']) =
        some (source.toList, ['"']) := by
      rw [passesBy_through h]
      simp [takeHole]
    have hscan : scanLexeme (holeText source).toList = .ok (.template [.hole source], []) := by
      rw [toList_holeText]
      refine Eq.trans (scanString_hole _ _ _ htake) ?_
      rw [String.ofList_toList]
      exact scanString_close _ _ _ []
    rw [toList_holeText] at hscan
    have hspells := spells_nil.scan (by decide) hscan
    rw [← toList_holeText] at hspells
    exact hspells _

/-! ### Lexemes of a hole -/

/-- A character that neither opens nor closes anything in the code of a hole. -/
def isInert (c : Char) : Bool :=
  c ≠ '"' && c ≠ '\x7b' && c ≠ '\x7d'

theorem isInert_of {p : Char → Bool} (hquote : p '"' = false) (hopen : p '\x7b' = false)
    (hclose : p '\x7d' = false) {c : Char} (h : p c = true) : isInert c = true := by
  simp only [isInert, Bool.and_eq_true, decide_eq_true_eq]
  refine ⟨⟨?_, ?_⟩, ?_⟩ <;> rintro rfl <;> simp_all

theorem isInert_of_mem (marks : List Char) (hmarks : marks.all isInert = true) {c : Char}
    (h : c ∈ marks) : isInert c = true :=
  List.all_eq_true.mp hmarks c h

theorem isInert_of_isDigitOf {radix : Nat} (hradix : radix ≤ 16) {c : Char}
    (h : isDigitOf radix c = true) : isInert c = true := by
  have hnone {d : Char} (hd : digitValue d = 16) : isDigitOf radix d = false := by
    simpa [isDigitOf, hd] using hradix
  exact isInert_of (hnone rfl) (hnone rfl) (hnone rfl) h

/-- The character leaves the reading of a hole in such a state. -/
def Keeps (state : Nat → HoleState) (c : Char) : Prop :=
  ∀ depth, (state depth).next c = some (state depth)

theorem keeps_code {c : Char} (h : isInert c = true) : Keeps .code c := by
  simp only [isInert, Bool.and_eq_true, decide_eq_true_eq] at h
  obtain ⟨⟨hquote, hopen⟩, hclose⟩ := h
  exact fun depth => by simp [next, hquote, hopen, hclose]

theorem keeps_quoted {c : Char} (hquote : c ≠ '"') (hslash : c ≠ '\\') : Keeps .quoted c :=
  fun depth => by simp [next, hquote, hslash]

/-- The text in front of the rest leaves the reading of a hole in such a state. -/
def Unmoved (state : Nat → HoleState) (cs rest : List Char) : Prop :=
  ∀ depth, through (state depth) cs = through (state depth) rest

namespace Unmoved

variable {state : Nat → HoleState} {c : Char} {cs ds rest : List Char}

theorem refl (cs : List Char) : Unmoved state cs cs :=
  fun _ => rfl

theorem trans (h : Unmoved state cs ds) (h' : Unmoved state ds rest) : Unmoved state cs rest :=
  fun depth => (h depth).trans (h' depth)

theorem cons (hc : Keeps state c) (h : Unmoved state cs rest) : Unmoved state (c :: cs) rest :=
  fun depth => (through_cons (hc depth) cs).trans (h depth)

theorem inert (hc : isInert c = true) (h : Unmoved .code cs rest) :
    Unmoved .code (c :: cs) rest :=
  h.cons (keeps_code hc)

theorem append (hds : ∀ d ∈ ds, Keeps state d) (rest : List Char) :
    Unmoved state (ds ++ rest) rest := by
  induction ds with
  | nil => exact refl rest
  | cons d ds ih =>
    obtain ⟨hd, hds⟩ := List.forall_mem_cons.mp hds
    exact cons hd (ih hds)

/-- Characters of one kind are passed up to the first that is not of it. -/
theorem dropWhile {p : Char → Bool} (hp : ∀ c, p c = true → Keeps state c) (cs : List Char) :
    Unmoved state cs (cs.dropWhile p) := by
  have hall := List.all_eq_true.mp (List.all_takeWhile (p := p) (l := cs))
  have h := append (fun c hc => hp c (hall c hc)) (cs.dropWhile p)
  rwa [List.takeWhile_append_dropWhile] at h

end Unmoved

/-! ### Numerals -/

theorem takeDigits_unmoved {radix : Nat} (hradix : radix ≤ 16) (cs : List Char) :
    Unmoved .code cs (takeDigits radix cs).2 := by
  fun_induction takeDigits radix cs with
  | case1 => exact .refl []
  | case2 c rest hc ds after htake ih =>
    rw [htake] at ih
    exact ih.inert (isInert_of_isDigitOf hradix hc)
  | case3 rest _ ih => exact ih.inert rfl
  | case4 => exact .refl _

theorem dropLongMark_unmoved (cs : List Char) : Unmoved .code cs (dropLongMark cs).2 := by
  unfold dropLongMark
  split
  · split
    · rename_i c rest hmark
      exact (Unmoved.refl rest).inert (isInert_of_mem ['L', 'l'] rfl (by simpa using hmark))
    · exact .refl _
  · exact .refl _

/-- If a lexeme is scanned, then it is a literal, and nothing that is taken moves the reading of a
hole. -/
def ScansNumeral (cs : List Char) (scanned : Scanned Lexeme) : Prop :=
  ∀ l rest, scanned = .ok (l, rest) → (∃ v, l = .literal v) ∧ Unmoved .code cs rest

theorem ScansNumeral.of_unmoved {cs ds : List Char} {scanned : Scanned Lexeme}
    (h : ScansNumeral ds scanned) (hcs : Unmoved .code cs ds) : ScansNumeral cs scanned := by
  intro l rest hscan
  obtain ⟨hl, hrest⟩ := h l rest hscan
  exact ⟨hl, hcs.trans hrest⟩

theorem integerLexeme_literal (value : Int64) (long : Bool) :
    ∃ v, integerLexeme value long = .literal v := by
  unfold integerLexeme
  split <;> exact ⟨_, rfl⟩

theorem scanRadix_unmoved (start : List Char) {radix : Nat} (hradix : radix ≤ 16)
    (cs : List Char) : ScansNumeral cs (scanRadix start radix cs) := by
  intro l rest h
  simp only [scanRadix] at h
  split at h
  · contradiction
  · split at h
    · contradiction
    · cases h
      exact ⟨integerLexeme_literal _ _,
        (takeDigits_unmoved hradix cs).trans (dropLongMark_unmoved _)⟩

theorem scanSuffix_unmoved {start cs : List Char} {n : Numeral} {scanned : Scanned Lexeme}
    (h : scanSuffix start n cs = some scanned) : ScansNumeral cs scanned := by
  intro l rest hscan
  subst hscan
  cases cs with
  | nil => contradiction
  | cons c cs =>
    have hmark (marks : List Char) (hmarks : marks.all isInert = true) (hc : c ∈ marks) :
        Unmoved .code (c :: cs) cs :=
      (Unmoved.refl cs).inert (isInert_of_mem marks hmarks hc)
    simp only [scanSuffix] at h
    split at h
    · rename_i hc
      have hlong := Option.some.inj h
      split at hlong
      · cases hlong
        rw [Bool.and_eq_true] at hc
        exact ⟨⟨_, rfl⟩, hmark ['L', 'l'] rfl (by simpa using hc.1)⟩
      · contradiction
    · split at h
      · rename_i hc
        cases h
        exact ⟨⟨_, rfl⟩, hmark ['F', 'f'] rfl (by simpa using hc)⟩
      · split at h
        · rename_i hc
          cases h
          exact ⟨⟨_, rfl⟩, hmark ['D', 'd'] rfl (by simpa using hc)⟩
        · contradiction

theorem finishNumber_unmoved (start : List Char) (n : Numeral) (cs : List Char) :
    ScansNumeral cs (finishNumber start n cs) := by
  intro l rest h
  unfold finishNumber at h
  split at h
  · cases h
    exact ⟨⟨_, rfl⟩, .refl cs⟩
  · split at h
    · cases h
      exact ⟨integerLexeme_literal _ _, .refl cs⟩
    · contradiction

theorem scanDigits_unmoved (cs : List Char) : Unmoved .code cs (scanDigits cs).2 := by
  have hwhole := takeDigits_unmoved (by decide : 10 ≤ 16) cs
  unfold scanDigits
  simp only
  split
  · rename_i p d more hrest
    rw [hrest] at hwhole
    split
    · rename_i hpoint
      obtain ⟨rfl, -⟩ : p = '.' ∧ d.isDigit = true := by simpa using hpoint
      exact hwhole.trans ((takeDigits_unmoved (by decide) (d :: more)).inert rfl)
    · exact hrest ▸ hwhole
  · exact hwhole

theorem exponentDigits_unmoved {cs digits : List Char} {negative : Bool}
    (h : exponentDigits cs = some (negative, digits)) : Unmoved .code cs digits := by
  unfold exponentDigits at h
  split at h
  · rename_i e c rest
    split at h
    · contradiction
    · rename_i he
      have hmark : isInert e = true := isInert_of_mem ['e', 'E'] rfl (by
        simp only [List.mem_cons, List.not_mem_nil, or_false]
        by_contra hne
        exact he (by simpa using not_or.mp hne))
      split at h
      · cases h
        exact (Unmoved.refl (c :: rest)).inert hmark
      · split at h
        · rename_i hsign
          cases h
          rw [Bool.and_eq_true] at hsign
          have hc : isInert c = true := isInert_of_mem ['+', '-'] rfl (by simpa using hsign.1)
          exact ((Unmoved.refl _).inert hc).inert hmark
        · contradiction
  · contradiction

theorem scanExponent_unmoved {cs rest : List Char} {n m : Numeral}
    (h : scanExponent n cs = some (m, rest)) : Unmoved .code cs rest := by
  unfold scanExponent at h
  split at h
  · contradiction
  · rename_i negative digits hdigits
    cases h
    exact (exponentDigits_unmoved hdigits).trans (takeDigits_unmoved (by decide) digits)

theorem radixPrefix_unmoved {cs rest : List Char} {radix : Nat}
    (h : radixPrefix cs = some (radix, rest)) : radix ≤ 16 ∧ Unmoved .code cs rest := by
  unfold radixPrefix at h
  split at h
  · rename_i a b more
    split at h
    · contradiction
    · rename_i ha
      obtain rfl : a = '0' := by simpa using ha
      have hmark (hb : b ∈ ['x', 'X', 'b', 'B']) : Unmoved .code ('0' :: b :: more) more :=
        ((Unmoved.refl more).inert (isInert_of_mem _ rfl hb)).inert rfl
      split at h
      · rename_i hb
        cases h
        simp only [Bool.or_eq_true, decide_eq_true_eq] at hb
        exact ⟨by decide, hmark (by simp; tauto)⟩
      · split at h
        · rename_i hb
          cases h
          simp only [Bool.or_eq_true, decide_eq_true_eq] at hb
          exact ⟨by decide, hmark (by simp; tauto)⟩
        · contradiction
  · contradiction

theorem scanDecimal_unmoved (start : List Char) : ScansNumeral start (scanDecimal start) := by
  have hdigits := scanDigits_unmoved start
  unfold scanDecimal
  simp only
  split
  · exact (scanSuffix_unmoved ‹_›).of_unmoved hdigits
  · split
    · exact (finishNumber_unmoved start _ _).of_unmoved hdigits
    · rename_i n rest hexponent
      refine ScansNumeral.of_unmoved ?_ (hdigits.trans (scanExponent_unmoved hexponent))
      cases hsuffix : scanSuffix start n rest with
      | none => exact finishNumber_unmoved start n rest
      | some scanned => exact scanSuffix_unmoved hsuffix

theorem scanNumber_unmoved (start : List Char) : ScansNumeral start (scanNumber start) := by
  unfold scanNumber
  split
  · rename_i radix digits hprefix
    obtain ⟨hradix, hstart⟩ := radixPrefix_unmoved hprefix
    exact (scanRadix_unmoved start hradix digits).of_unmoved hstart
  · exact scanDecimal_unmoved start

/-! ### Escapes and quoted text -/

/-- A digit of an escaped code, or the plus that may stand in front of them. -/
def isCodeDigit (c : Char) : Bool :=
  c = '+' || isDigitOf 16 c

theorem codeEscape_digits {ds : List Char} {value : Char} (h : codeEscape ds = some value) :
    ∀ d ∈ ds, isCodeDigit d = true := by
  have hhex {d : Char} (hd : isDigitOf 16 d = true) : isCodeDigit d = true := by
    rw [isCodeDigit, hd, Bool.or_true]
  simp only [codeEscape] at h
  obtain ⟨hdigits, -⟩ := Option.ite_none_right_eq_some.mp h
  rw [Bool.and_eq_true, List.all_eq_true] at hdigits
  intro d hd
  split at hdigits
  · rename_i hplus
    obtain ⟨more, rfl⟩ : ∃ more, ds = '+' :: more := List.head?_eq_some_iff.mp hplus
    rcases List.mem_cons.mp hd with rfl | hd
    · rfl
    · exact hhex (hdigits.1 d hd)
  · exact hhex (hdigits.1 d hd)

/-- What an escape takes: one character that stands for the value, or a code. -/
theorem scanEscape_ok {start cs rest : List Char} {value : Char}
    (h : scanEscape start cs = .ok (value, rest)) :
    (∃ c, cs = c :: rest ∧ simpleEscape c = some value) ∨
      ∃ ds, cs = 'u' :: (ds ++ rest) ∧ ∀ d ∈ ds, isCodeDigit d = true := by
  unfold scanEscape at h
  split at h
  · contradiction
  · rename_i c more
    split at h
    · rename_i hc
      subst hc
      split at h
      · rename_i d₁ d₂ d₃ d₄ after
        split at h
        · rename_i hcode
          cases h
          exact .inr ⟨_, rfl, codeEscape_digits hcode⟩
        · contradiction
      · contradiction
    · split at h
      · cases h
        exact .inl ⟨c, rfl, ‹_›⟩
      · contradiction

theorem isInert_of_isCodeDigit {c : Char} (h : isCodeDigit c = true) : isInert c = true :=
  isInert_of (p := isCodeDigit) rfl rfl rfl h

/-- An escape whose value is inert is so itself. -/
theorem scanEscape_unmoved {start cs rest : List Char} {value : Char}
    (h : scanEscape start cs = .ok (value, rest)) (hvalue : isInert value = true) :
    Unmoved .code cs rest := by
  obtain ⟨c, rfl, hc⟩ | ⟨ds, rfl, hds⟩ := scanEscape_ok h
  · refine (Unmoved.refl rest).inert ?_
    -- an escaped quotation mark stands for itself
    refine isInert_of (p := fun d => simpleEscape d = some value) ?_ rfl rfl (decide_eq_true hc)
    refine decide_eq_false fun hquote => ?_
    cases hquote
    contradiction
  · exact Unmoved.inert rfl
      (.append (fun d hd => keeps_code (isInert_of_isCodeDigit (hds d hd))) rest)

/-- Behind a backslash in a nested string stands what it escapes. -/
theorem scanEscape_quoted {start cs rest : List Char} {value : Char}
    (h : scanEscape start cs = .ok (value, rest)) : Unmoved .quoted ('\\' :: cs) rest := by
  have hbackslash {c : Char} (more : List Char) : Unmoved .quoted ('\\' :: c :: more) more :=
    fun _ => rfl
  obtain ⟨c, rfl, -⟩ | ⟨ds, rfl, hds⟩ := scanEscape_ok h
  · exact hbackslash rest
  · refine (hbackslash _).trans (.append (fun d hd => keeps_quoted ?_ ?_) rest)
    all_goals
      rintro rfl
      exact absurd (hds _ hd) (by decide)

theorem scanChar_unmoved {start cs rest : List Char} {l : Lexeme}
    (h : scanChar start cs = .ok (l, rest)) :
    ∃ value, l = .literal (.char value) ∧ (isInert value = true → Unmoved .code cs rest) := by
  cases cs with
  | nil => contradiction
  | cons c cs =>
    simp only [scanChar] at h
    split at h
    · contradiction
    · split at h
      · contradiction
      · split at h
        · contradiction
        · rename_i value after hvalue
          split at h
          · rename_i hclose
            cases h
            obtain ⟨more, rfl⟩ := List.head?_eq_some_iff.mp hclose
            refine ⟨value, rfl, fun hinert => ?_⟩
            have hend : Unmoved .code ('\'' :: more) more := (Unmoved.refl more).inert rfl
            split at hvalue
            · rename_i hslash
              subst hslash
              exact ((scanEscape_unmoved hvalue hinert).trans hend).inert rfl
            · cases hvalue
              exact hend.inert hinert
          · contradiction

/-! ### Nested strings -/

/-- The hole of a nested string is passed up to its end, if there is no quotation mark in it. -/
theorem through_nested {source : List Char} (hquote : '"' ∉ source) (depth : Nat)
    (rest : List Char) :
    through (.quoted depth) (source ++ '\x7d' :: rest) = through (.quoted depth) rest ∧
      through (.escaped depth) (source ++ '\x7d' :: rest) = through (.quoted depth) rest := by
  induction source with
  | nil => exact ⟨rfl, rfl⟩
  | cons c source ih =>
    obtain ⟨hc, hsource⟩ := List.ne_and_not_mem_of_not_mem_cons hquote
    obtain ⟨hin, hbehind⟩ := ih hsource
    refine ⟨?_, (through_cons rfl _).trans hin⟩
    by_cases hslash : c = '\\'
    · exact (through_cons (by rw [hslash]; rfl) _).trans hbehind
    · exact (through_cons (keeps_quoted (Ne.symm hc) hslash depth) _).trans hin

/-- Whether a lexeme can be told by counting quotation marks and braces: no character literal is
one of these, and no hole of a nested string has a quotation mark. -/
def Lexeme.embeds : Lexeme → Bool
  | .literal (.char c) => isInert c
  | .template parts => parts.all (!·.quotes)
  | _ => true

theorem keeps_quoted_word {c : Char} (h : isIdentifierContinue c = true) : Keeps .quoted c := by
  refine keeps_quoted ?_ ?_
  all_goals
    rintro rfl
    exact absurd h (by decide)

theorem keeps_code_word {c : Char} (h : isIdentifierContinue c = true) : Keeps .code c :=
  keeps_code (isInert_of (by decide) (by decide) (by decide) h)

/-- A nested string is passed up to its end. -/
theorem scanString_through {start cs rest : List Char} {parts : List TemplatePart}
    {reversed : List Char} {l : Lexeme} (h : scanString start parts reversed cs = .ok (l, rest))
    (hl : l.embeds = true) (depth : Nat) :
    through (.quoted depth) cs = through (.code depth) rest := by
  fun_induction scanString start parts reversed cs
  all_goals try contradiction
  case case3 =>
    cases h
    rfl
  case case5 ih => exact (scanEscape_quoted ‹scanEscape _ _ = _› depth).trans (ih h)
  case case6 ih => exact (through_cons rfl _).trans (ih h)
  case case8 htake _ _ _ ih =>
    obtain ⟨more, rfl⟩ := scanString_template h (by simp)
    simp only [Lexeme.embeds, List.all_append, List.all_cons, TemplatePart.quotes,
      String.toList_ofList, Bool.and_eq_true, Bool.not_eq_true', decide_eq_false_iff_not] at hl
    rw [takeHole_eq htake]
    refine (through_cons rfl _).trans ((through_cons rfl _).trans ?_)
    exact (through_nested hl.1.2.1 depth _).1.trans (ih h)
  case case9 c more _ hstart _ _ _ ih =>
    have hc : isIdentifierContinue c = true := by rw [isIdentifierContinue, hstart]; rfl
    have hname := Unmoved.dropWhile (fun _ => keeps_quoted_word) (c :: more)
    rw [List.dropWhile_cons_of_pos hc] at hname
    exact (through_cons rfl _).trans ((hname depth).trans (ih h))
  case case10 ih => exact (through_cons rfl _).trans (ih h)
  case case11 hquote hslash _ ih =>
    exact (through_cons (keeps_quoted hquote hslash depth) _).trans (ih h)

/-! ### Lexemes -/

/-- A lexeme that is not the end, and that leaves the reading of a hole's code as many braces deep
as it counts itself. -/
def Counts (l : Lexeme) (cs rest : List Char) : Prop :=
  l ≠ .eof ∧ ∀ depth after,
    Parser.bracesBehind depth l = some after → through (.code depth) cs = through (.code after) rest

/-- Whether a lexeme is no brace and not the end. -/
def Lexeme.isOther : Lexeme → Bool
  | .eof => false
  | l => !Parser.isBrace l

theorem Unmoved.counts {l : Lexeme} {cs rest : List Char} (h : Unmoved .code cs rest)
    (hl : l.isOther = true) : Counts l cs rest := by
  unfold Lexeme.isOther at hl
  split at hl
  · contradiction
  · rename_i hend
    refine ⟨hend, fun depth after hafter => ?_⟩
    rw [Parser.bracesBehind_of_isBrace (by simpa using hl)] at hafter
    rw [← Option.some.inj hafter]
    exact h depth

theorem scanString_isOther {start cs rest : List Char} {parts : List TemplatePart}
    {reversed : List Char} {l : Lexeme} (h : scanString start parts reversed cs = .ok (l, rest)) :
    l.isOther = true := by
  fun_induction scanString start parts reversed cs
  all_goals try contradiction
  case case3 =>
    cases h
    unfold closeString
    split <;> rfl
  case case5 ih | case6 ih | case8 ih | case9 ih | case10 ih | case11 ih => exact ih h

theorem ofWord_isOther (word : String) : (Lexeme.ofWord word).isOther = true := by
  have hreserved : ∀ e ∈ Lexeme.reserved, e.2.isOther = true := by decide
  unfold Lexeme.ofWord
  cases hword : Lexeme.reserved.lookup word with
  | none => rfl
  | some l =>
    obtain ⟨before, after, hentry, -⟩ := List.lookup_eq_some_iff.mp hword
    exact hreserved (word, l) (by simp [hentry])

theorem behind_eq {spelling cs rest : List Char} (h : behind spelling cs = some rest) :
    cs = spelling ++ rest := by
  fun_induction behind spelling cs with
  | case1 =>
    cases h
    rfl
  | case2 _ _ _ ih => rw [ih h, List.cons_append]
  | case3 | case4 => contradiction

theorem unmoved_of_all {spelling : List Char} (h : spelling.all isInert = true)
    (rest : List Char) : Unmoved .code (spelling ++ rest) rest :=
  .append (fun c hc => keeps_code (List.all_eq_true.mp h c hc)) rest

theorem scanNegated_counts {cs rest : List Char} {l : Lexeme}
    (h : scanNegated cs = some (l, rest)) : Counts l cs rest := by
  obtain ⟨⟨word, lexeme⟩, hm, hword⟩ := List.exists_of_findSome?_eq_some h
  have hinert : word.all isInert = true ∧ lexeme.isOther = true := by
    simp only [List.mem_cons, List.not_mem_nil, or_false, Prod.mk.injEq] at hm
    obtain ⟨rfl, rfl⟩ | ⟨rfl, rfl⟩ := hm <;> exact ⟨rfl, rfl⟩
  simp only at hword
  split at hword
  · rename_i after hbehind
    split at hword
    · contradiction
    · cases hword
      obtain rfl := behind_eq hbehind
      exact (unmoved_of_all hinert.1 rest).counts hinert.2
  · contradiction

/-- Whether a spelling is inert, or the brace that its lexeme is. -/
def spellsBraces (spelling : List Char) : Lexeme → Bool
  | .symbol .lbrace => spelling = ['\x7b']
  | .symbol .rbrace => spelling = ['\x7d']
  | l => spelling.all isInert && l.isOther

theorem spellings_braces : ∀ e ∈ spellings, spellsBraces e.1 e.2 = true := by
  decide

theorem counts_of_spellsBraces {spelling : List Char} {l : Lexeme}
    (h : spellsBraces spelling l = true) (rest : List Char) : Counts l (spelling ++ rest) rest := by
  unfold spellsBraces at h
  split at h
  · obtain rfl : spelling = ['\x7b'] := by simpa using h
    refine ⟨nofun, fun depth after hafter => ?_⟩
    cases hafter
    exact through_cons (by simp [next]) rest
  · obtain rfl : spelling = ['\x7d'] := by simpa using h
    refine ⟨nofun, fun depth after hafter => ?_⟩
    simp only [Parser.bracesBehind] at hafter
    split at hafter
    · contradiction
    · rename_i hdepth
      cases hafter
      exact through_cons (by simp [next, hdepth]) rest
  · rw [Bool.and_eq_true] at h
    exact (unmoved_of_all h.1 rest).counts h.2

theorem scanSymbol_counts {cs rest : List Char} {l : Lexeme}
    (h : scanSymbol cs = some (l, rest)) : Counts l cs rest := by
  obtain ⟨⟨spelling, lexeme⟩, hm, hspelling⟩ := List.exists_of_findSome?_eq_some h
  obtain ⟨after, hbehind, he⟩ := Option.map_eq_some_iff.mp hspelling
  cases he
  rw [behind_eq hbehind]
  exact counts_of_spellsBraces (spellings_braces _ hm) rest

/-- A lexeme that can be told by counting is passed as it counts. -/
theorem scanLexeme_counts {c : Char} {cs rest : List Char} {l : Lexeme}
    (h : scanLexeme (c :: cs) = .ok (l, rest)) (hl : l.embeds = true) :
    Counts l (c :: cs) rest := by
  simp only [scanLexeme] at h
  split at h
  · rename_i hquote
    subst hquote
    refine Unmoved.counts (fun depth => ?_) (scanString_isOther h)
    exact (through_cons rfl _).trans (scanString_through h hl depth)
  split at h
  · rename_i hquote
    subst hquote
    obtain ⟨value, rfl, hrest⟩ := scanChar_unmoved h
    exact Unmoved.counts ((hrest hl).inert rfl) rfl
  split at h
  · obtain ⟨⟨v, rfl⟩, hrest⟩ := scanNumber_unmoved (c :: cs) l rest h
    exact hrest.counts rfl
  split at h
  · rename_i hstart
    cases h
    have hc : isIdentifierContinue c = true := by rw [isIdentifierContinue, hstart]; rfl
    have hword := Unmoved.dropWhile (fun _ => keeps_code_word) (c :: cs)
    rw [List.dropWhile_cons_of_pos hc] at hword
    exact hword.counts (ofWord_isOther _)
  split at h
  · rename_i hscan
    cases h
    cases hnegated : scanNegated (c :: cs) with
    | some scanned =>
      rw [hnegated] at hscan
      cases hscan
      exact scanNegated_counts hnegated
    | none =>
      rw [hnegated] at hscan
      exact scanSymbol_counts hscan
  · contradiction

theorem keeps_code_blank {c : Char} (h : isBlank c = true) : Keeps .code c :=
  keeps_code (isInert_of (by decide) (by decide) (by decide) h)

/-- Tokens that can be told by counting are passed, up to the end of the text, as they count. -/
theorem tokensFrom_through {size : Nat} {cs : List Char} {taken rest : List Token}
    (h : tokensFrom size cs = .ok (taken ++ rest)) (hend : Parser.current rest = .eof)
    (hembeds : ∀ t ∈ taken, t.lexeme.embeds = true) {depth after : Nat}
    (hbraces : Parser.braces depth taken = some after) :
    through (.code depth) cs = some (.code after) := by
  induction taken generalizing cs depth with
  | nil =>
    obtain rfl : depth = after := Option.some.inj hbraces
    rw [Unmoved.dropWhile (fun _ => keeps_code_blank) cs depth]
    obtain ⟨hnil, -⟩ | ⟨c, more, l, text, offset, others, -, hscan, -, rfl⟩ := tokensFrom_ok h
    · rw [hnil]
      rfl
    · obtain rfl : l = .eof := hend
      exact absurd rfl (scanLexeme_counts hscan rfl).1
  | cons t taken ih =>
    obtain ⟨ht, htaken⟩ := List.forall_mem_cons.mp hembeds
    obtain ⟨middle, hmiddle, hmore⟩ := Option.bind_eq_some_iff.mp hbraces
    rw [Unmoved.dropWhile (fun _ => keeps_code_blank) cs depth]
    obtain ⟨hnil, htokens⟩ | ⟨c, more, l, text, offset, others, hdrop, hscan, hothers, htokens⟩ :=
      tokensFrom_ok h
    · obtain ⟨rfl, hnone⟩ := List.cons.inj htokens
      obtain ⟨rfl, -⟩ := List.append_eq_nil_iff.mp hnone
      cases hmiddle
      cases hmore
      rw [hnil]
      rfl
    · obtain ⟨rfl, rfl⟩ := List.cons.inj htokens
      rw [hdrop, (scanLexeme_counts hscan ht).2 depth middle hmiddle]
      exact ih hothers htaken hmore

/-! ### Expressions in holes -/

/-- Whether the lexemes of a source can be told by counting, and its types close their braces. -/
def embeds (source : String) : Bool :=
  match tokenize source with
  | .ok tokens => tokens.all (·.lexeme.embeds) && Parser.typesClose tokens
  | .error _ => false

/-- An expression is read as the hole that it is written in if and only if its quotation marks and
braces, counted one by one, close each other. They do where no character literal is one of these,
no nested string has a string in a hole, and the generic arguments of types close their braces. -/
theorem hole_reads {source : String} {e : Expr} (h : parse source = .ok e) :
    (HoleReads source ↔ through (.code 0) source.toList = some (.code 0)) ∧
      (embeds source = true → HoleReads source) := by
  refine ⟨holeReads_iff source, fun hembeds => (holeReads_iff source).mpr ?_⟩
  cases htokens : tokenize source with
  | error cause =>
    rw [embeds, htokens] at hembeds
    contradiction
  | ok tokens =>
    simp only [embeds, htokens, Bool.and_eq_true, List.all_eq_true] at hembeds
    have hparse : parseTokens tokens = .ok e := by
      rw [parse, htokens] at h
      exact h
    obtain ⟨taken, rest, rfl, hend, hbraces⟩ := parseTokens_closes hparse hembeds.2
    exact tokensFrom_through htokens hend
      (fun t ht => hembeds.1 t (List.mem_append_left rest ht)) hbraces

/-- A lambda, a cast, a nested string with a brace, a name and a hole in it, and a character. -/
theorem hole_reads_mixed :
    let source := "xs.map \x7b x -> x as? Map<K, V> \x7d + \"$n \x7d $\x7bf(x)\x7d\" + 'a'"
    embeds source = true ∧ HoleReads source := by
  intro source
  have hembeds : embeds source = true := by decide +kernel
  cases h : parse source with
  | error cause =>
    have hparses : (parse source).isOk = true := by decide +kernel
    rw [h] at hparses
    contradiction
  | ok e => exact ⟨hembeds, (hole_reads h).2 hembeds⟩

/-- A closing brace as a character can be read on its own, but not in a hole. -/
theorem hole_unread : (parse "'\x7d'").isOk = true ∧ ¬ HoleReads "'\x7d'" := by
  refine ⟨by decide +kernel, fun hreads => ?_⟩
  have hthrough := (holeReads_iff _).mp hreads
  contradiction

end Debugger.Syntax
