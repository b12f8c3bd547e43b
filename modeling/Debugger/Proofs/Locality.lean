import Debugger.Proofs.Holes

/-!
Lexing is local. A scanner looks a few characters beyond the lexeme that it takes, but only to see
whether that goes on: it takes the same in front of any text that ends there or goes on with a blank.
-/

namespace Debugger.Syntax

open Text

/-! ### Texts that are cut off -/

/-- The text ends or goes on with a blank. -/
def Pauses (cs : List Char) : Prop :=
  cs.head?.all isBlank = true

/-- The text goes on like the other one up to a place where it ends or has a blank. -/
def Cropped (rest rest' : List Char) : Prop :=
  ∃ common s, common <+: rest ∧ rest' = common ++ s ∧ Pauses s

theorem Pauses.cropped {s : List Char} (h : Pauses s) (rest : List Char) : Cropped rest s :=
  ⟨[], s, List.nil_prefix, rfl, h⟩

theorem Pauses.cropped_append {s : List Char} (h : Pauses s) (rest : List Char) :
    Cropped rest (rest ++ s) :=
  ⟨rest, s, List.prefix_rfl, rfl, h⟩

theorem Pauses.cons {c : Char} (h : isBlank c = true) (cs : List Char) : Pauses (c :: cs) := by
  simpa [Pauses] using h

theorem pauses_of_all {cs : List Char} (h : cs.all isBlank = true) : Pauses cs := by
  cases cs with
  | nil => rfl
  | cons c cs =>
    simp only [List.all_cons, Bool.and_eq_true] at h
    exact .cons h.1 cs

/-- A word without blanks in front of a pause is in front of nothing. -/
theorem Pauses.eq_nil_of_begins {s word : List Char} (h : Pauses s) (hp : word <+: s)
    (hword : ∀ c ∈ word, isBlank c = false) : word = [] := by
  cases word with
  | nil => rfl
  | cons c word =>
    obtain ⟨more, rfl⟩ := hp
    have hc := hword c List.mem_cons_self
    simp [Pauses, hc] at h

namespace Cropped

variable {rest rest' : List Char}

/-- What is in front of both does not matter. -/
theorem append_left (h : Cropped rest rest') (front : List Char) :
    Cropped (front ++ rest) (front ++ rest') := by
  obtain ⟨common, s, hcommon, rfl, hs⟩ := h
  exact ⟨front ++ common, s, (List.prefix_append_right_inj front).mpr hcommon,
    (List.append_assoc ..).symm, hs⟩

/-- A word without blanks that the cut text begins with begins the whole text as well. -/
theorem of_begins (h : Cropped rest rest') {word : List Char}
    (hword : ∀ c ∈ word, isBlank c = false) (hp : word <+: rest') : word <+: rest := by
  obtain ⟨common, s, hcommon, rfl, hs⟩ := h
  obtain ⟨behind, hbehind⟩ := hp
  rcases List.append_eq_append_iff.mp hbehind with ⟨more, rfl, -⟩ | ⟨more, rfl, rfl⟩
  · exact (List.prefix_append word more).trans hcommon
  · have hnil : more = [] := hs.eq_nil_of_begins (List.prefix_append more behind) fun c hc =>
      hword c (List.mem_append_right common hc)
    rwa [hnil, List.append_nil]

/-- A kind of characters that the text does not go on with, the cut text does not either. -/
theorem head (h : Cropped rest rest') {p : Char → Bool} (hp : ∀ c, p c = true → isBlank c = false)
    (hrest : rest.head?.any p = false) : rest'.head?.any p = false := by
  cases rest' with
  | nil => rfl
  | cons c more =>
    by_contra hc
    have hpc : p c = true := by simpa using hc
    have hword : ∀ d ∈ [c], isBlank d = false := by simpa using hp c hpc
    obtain ⟨more', rfl⟩ := h.of_begins hword ⟨more, rfl⟩
    simp [hpc] at hrest

end Cropped

/-- What the scanner makes of a text it makes of all that is taken, in front of any rest that the
text's own rest can be cut down to. -/
def Takes {β : Type} (scan : List Char → List Char → β) (result : List Char → β)
    (cs rest : List Char) : Prop :=
  ∃ taken, cs = taken ++ rest ∧
    ∀ start rest', Cropped rest rest' → scan start (taken ++ rest') = result rest'

/-! ### Numerals -/

/-- A digit, or an underscore between digits or behind them. -/
def isDigitOrGap (radix : Nat) (c : Char) : Bool :=
  isDigitOf radix c || c = '_'

theorem takeDigits_eq (radix : Nat) (cs : List Char) :
    takeDigits radix cs =
      ((cs.takeWhile (isDigitOrGap radix)).filter (isDigitOf radix),
        cs.dropWhile (isDigitOrGap radix)) := by
  fun_induction takeDigits radix cs with
  | case1 => rfl
  | case2 c rest hc ds after htake ih =>
    rw [htake] at ih
    obtain ⟨rfl, rfl⟩ := Prod.mk.inj ih
    simp [isDigitOrGap, hc]
  | case3 rest hc ih => simp [isDigitOrGap, hc, ih]
  | case4 c rest hc hgap => simp [isDigitOrGap, hc, hgap]

theorem code_of_isDigitOf {radix : Nat} (hradix : radix ≤ 16) {c : Char}
    (h : isDigitOf radix c = true) : 48 ≤ c.toNat ∧ c.toNat ≤ 102 := by
  have hvalue : digitValue c < 16 := Nat.lt_of_lt_of_le (of_decide_eq_true h) hradix
  unfold digitValue at hvalue
  split at hvalue
  · have := code_of_isDigit ‹_›
    omega
  · split at hvalue
    · rename_i hlower
      simp only [Bool.and_eq_true, decide_eq_true_eq, Char.le_def, UInt32.le_iff_toNat_le]
        at hlower
      exact ⟨Nat.le_trans (by decide) hlower.1, hlower.2⟩
    · split at hvalue
      · rename_i hupper
        simp only [Bool.and_eq_true, decide_eq_true_eq, Char.le_def, UInt32.le_iff_toNat_le]
          at hupper
        exact ⟨Nat.le_trans (by decide) hupper.1, Nat.le_trans hupper.2 (by decide)⟩
      · omega

theorem isBlank_of_code {c : Char} (h : 48 ≤ c.toNat ∧ c.toNat ≤ 126) : isBlank c = false := by
  simp [isBlank]
  omega

theorem isBlank_of_isDigitOrGap {radix : Nat} (hradix : radix ≤ 16) {c : Char}
    (h : isDigitOrGap radix c = true) : isBlank c = false := by
  rw [isDigitOrGap, Bool.or_eq_true, decide_eq_true_eq] at h
  rcases h with hdigit | rfl
  · have := code_of_isDigitOf hradix hdigit
    exact isBlank_of_code (by omega)
  · rfl

theorem head_dropWhile (p : Char → Bool) (cs : List Char) :
    (cs.dropWhile p).head?.any p = false := by
  have h := List.head?_dropWhile_not p cs
  cases hd : (cs.dropWhile p).head? with
  | none => rfl
  | some c =>
    rw [hd] at h
    simpa using h

theorem takeDigits_takes {radix : Nat} (hradix : radix ≤ 16) (cs : List Char) :
    Takes (fun _ => takeDigits radix) (fun r => ((takeDigits radix cs).1, r)) cs
      (takeDigits radix cs).2 := by
  rw [takeDigits_eq]
  refine ⟨cs.takeWhile (isDigitOrGap radix), List.takeWhile_append_dropWhile.symm, ?_⟩
  intro _ rest' hcrop
  have hrest := hcrop.head (fun _ => isBlank_of_isDigitOrGap hradix)
    (head_dropWhile (isDigitOrGap radix) cs)
  have hall : (cs.takeWhile (isDigitOrGap radix)).all (isDigitOrGap radix) = true :=
    List.all_takeWhile
  obtain ⟨htake, hdrop⟩ := takeWhile_stopped hall hrest
  simp only [takeDigits_eq, htake, hdrop]

/-- A digit in front is taken, whatever follows it. -/
theorem takeDigits_takes_digit {radix : Nat} (hradix : radix ≤ 16) {d : Char}
    (hd : isDigitOf radix d = true) (more : List Char) :
    ∃ taken, more = taken ++ (takeDigits radix (d :: more)).2 ∧
      ∀ rest', Cropped (takeDigits radix (d :: more)).2 rest' →
        takeDigits radix (d :: (taken ++ rest')) = ((takeDigits radix (d :: more)).1, rest') := by
  obtain ⟨taken, hmore, htaken⟩ := takeDigits_takes hradix more
  have hcons (cs : List Char) : takeDigits radix (d :: cs) =
      (d :: (takeDigits radix cs).1, (takeDigits radix cs).2) := by
    simp [takeDigits, hd]
  simp only [hcons]
  exact ⟨taken, hmore, fun rest' hcrop => by simp [htaken [] rest' hcrop]⟩

def isLongMark (c : Char) : Bool :=
  c = 'L' || c = 'l'

theorem dropLongMark_eq (cs : List Char) :
    dropLongMark cs = if cs.head?.any isLongMark then (true, cs.tail) else (false, cs) := by
  cases cs with
  | nil => rfl
  | cons c cs => simp [dropLongMark, isLongMark]

theorem isBlank_of_isLongMark {c : Char} (h : isLongMark c = true) : isBlank c = false := by
  simp only [isLongMark, Bool.or_eq_true, decide_eq_true_eq] at h
  rcases h with rfl | rfl <;> rfl

theorem dropLongMark_takes (cs : List Char) :
    Takes (fun _ => dropLongMark) (fun r => ((dropLongMark cs).1, r)) cs (dropLongMark cs).2 := by
  simp only [dropLongMark_eq]
  by_cases hmark : cs.head?.any isLongMark = true
  · obtain ⟨c, more, rfl⟩ : ∃ c more, cs = c :: more := by
      refine List.exists_cons_of_ne_nil ?_
      rintro rfl
      contradiction
    have hc : isLongMark c = true := hmark
    exact ⟨[c], by simp [hc], fun _ rest' _ => by simp [dropLongMark_eq, hc]⟩
  · refine ⟨[], by simp [hmark], fun _ rest' hcrop => ?_⟩
    rw [if_neg hmark] at hcrop ⊢
    have hrest := hcrop.head (fun _ => isBlank_of_isLongMark) (Bool.eq_false_iff.mpr hmark)
    simp [dropLongMark_eq, hrest]

theorem scanRadix_takes {start cs rest : List Char} {radix : Nat} {l : Lexeme}
    (hradix : radix ≤ 16) (h : scanRadix start radix cs = .ok (l, rest)) :
    Takes (fun start => scanRadix start radix) (fun r => .ok (l, r)) cs rest := by
  obtain ⟨digits, hcs, hdigits⟩ := takeDigits_takes hradix cs
  obtain ⟨mark, hmid, hmark⟩ := dropLongMark_takes (takeDigits radix cs).2
  simp only [scanRadix] at h
  split at h
  · contradiction
  · rename_i hsome
    split at h
    · contradiction
    · rename_i hfits
      cases h
      refine ⟨digits ++ mark, by rw [List.append_assoc, ← hmid, ← hcs], ?_⟩
      intro start' rest' hcrop
      have hcrop' : Cropped (takeDigits radix cs).2 (mark ++ rest') := by
        rw [hmid]
        exact hcrop.append_left mark
      rw [List.append_assoc]
      simp only [scanRadix, hdigits start' _ hcrop', hmark start' _ hcrop, if_neg hsome,
        if_neg hfits]

/-- The marks that end a numeral as a type suffix. -/
def isSuffixMark (n : Numeral) (c : Char) : Bool :=
  isLongMark c && !n.floating || (c = 'F' || c = 'f') || (c = 'D' || c = 'd')

theorem isBlank_of_isSuffixMark {n : Numeral} {c : Char} (h : isSuffixMark n c = true) :
    isBlank c = false := by
  simp only [isSuffixMark, Bool.or_eq_true, Bool.and_eq_true, decide_eq_true_eq] at h
  rcases h with (⟨hc, -⟩ | rfl | rfl) | rfl | rfl
  · exact isBlank_of_isLongMark hc
  all_goals rfl

theorem scanSuffix_eq_none_iff {start cs : List Char} {n : Numeral} :
    scanSuffix start n cs = none ↔ cs.head?.any (isSuffixMark n) = false := by
  cases cs with
  | nil => simp [scanSuffix]
  | cons c cs =>
    simp only [scanSuffix, List.head?_cons, Option.any_some, isSuffixMark, isLongMark]
    split
    · rename_i hc
      simp [hc]
    · split
      · rename_i hc
        simp [hc]
      · split
        · rename_i hc
          simp [hc]
        · simp_all

theorem scanSuffix_takes {start cs rest : List Char} {n : Numeral} {l : Lexeme}
    (h : scanSuffix start n cs = some (.ok (l, rest))) :
    Takes (fun start => scanSuffix start n) (fun r => some (.ok (l, r))) cs rest := by
  cases cs with
  | nil => contradiction
  | cons c cs =>
    obtain rfl : cs = rest := by
      unfold scanSuffix at h
      repeat' split at h
      all_goals simp_all
    refine ⟨[c], rfl, fun start' rest' _ => ?_⟩
    rw [List.singleton_append]
    unfold scanSuffix at h ⊢
    repeat' split at h
    all_goals simp_all

/-- What an exponent begins with, in front of its digits. -/
def exponentMarks : List (List Char) :=
  [['e'], ['E'], ['e', '+'], ['E', '+'], ['e', '-'], ['E', '-']]

theorem exponentDigits_eq_some_iff {cs digits : List Char} {negative : Bool} :
    exponentDigits cs = some (negative, digits) ↔
      ∃ mark ∈ exponentMarks, ∃ d more, d.isDigit = true ∧ digits = d :: more ∧
        cs = mark ++ digits ∧ negative = decide ('-' ∈ mark) := by
  constructor
  · intro h
    unfold exponentDigits at h
    split at h
    · rename_i e c rest
      split at h
      · contradiction
      · rename_i he
        replace he : e = 'e' ∨ e = 'E' := by
          by_contra hne
          exact he (by simpa using not_or.mp hne)
        split at h
        · rename_i hc
          cases h
          refine ⟨[e], ?_, c, rest, hc, rfl, rfl, ?_⟩
          all_goals rcases he with rfl | rfl <;> decide
        · split at h
          · rename_i hsign
            cases h
            simp only [Bool.and_eq_true, Bool.or_eq_true, decide_eq_true_eq] at hsign
            obtain ⟨hc, hd⟩ := hsign
            obtain ⟨d, more, rfl⟩ : ∃ d more, digits = d :: more := by
              refine List.exists_cons_of_ne_nil ?_
              rintro rfl
              contradiction
            refine ⟨[e, c], ?_, d, more, hd, rfl, rfl, ?_⟩
            all_goals rcases he with rfl | rfl <;> rcases hc with rfl | rfl <;> decide
          · contradiction
    · contradiction
  · rintro ⟨mark, hmark, d, more, hd, rfl, rfl, rfl⟩
    simp only [exponentMarks, List.mem_cons, List.not_mem_nil, or_false] at hmark
    rcases hmark with rfl | rfl | rfl | rfl | rfl | rfl <;> simp [exponentDigits, hd]

theorem isBlank_of_exponentMark : ∀ mark ∈ exponentMarks, ∀ c ∈ mark, isBlank c = false := by
  simp [exponentMarks, isBlank]

theorem exponentDigits_none {cs cs' : List Char} (h : exponentDigits cs = none)
    (hcrop : Cropped cs cs') : exponentDigits cs' = none := by
  cases hsome : exponentDigits cs' with
  | none => rfl
  | some read =>
    obtain ⟨negative, digits⟩ := read
    obtain ⟨mark, hmark, d, more, hd, rfl, rfl, -⟩ := exponentDigits_eq_some_iff.mp hsome
    have hword : ∀ c ∈ mark ++ [d], isBlank c = false := by
      intro c hc
      rcases List.mem_append.mp hc with hc | hc
      · exact isBlank_of_exponentMark _ hmark c hc
      · rw [List.mem_singleton.mp hc]
        exact isBlank_of_isDigit hd
    obtain ⟨behind, rfl⟩ := hcrop.of_begins hword ⟨more, by simp⟩
    have hsame : mark ++ [d] ++ behind = mark ++ d :: behind := by simp
    have hread := exponentDigits_eq_some_iff.mpr ⟨mark, hmark, d, behind, hd, rfl, hsame, rfl⟩
    rw [h] at hread
    contradiction

theorem scanExponent_takes {cs rest : List Char} {n m : Numeral}
    (h : scanExponent n cs = some (m, rest)) :
    Takes (fun _ => scanExponent n) (fun r => some (m, r)) cs rest := by
  unfold scanExponent at h
  split at h
  · contradiction
  · rename_i negative digits hread
    obtain ⟨mark, hmark, d, more, hd, rfl, rfl, hnegative⟩ := exponentDigits_eq_some_iff.mp hread
    obtain ⟨taken, htaken, hdigits⟩ :=
      takeDigits_takes_digit (by decide : 10 ≤ 16) (isDigitOf_ten hd) more
    simp only [Option.some.injEq, Prod.mk.injEq] at h
    obtain ⟨rfl, rfl⟩ := h
    refine ⟨mark ++ d :: taken, ?_, fun start rest' hcrop => ?_⟩
    · rw [List.append_assoc, List.cons_append, ← htaken]
    · have hread' := exponentDigits_eq_some_iff.mpr
        ⟨mark, hmark, d, taken ++ rest', hd, rfl, rfl, hnegative⟩
      rw [List.append_assoc, List.cons_append]
      simp only [scanExponent, hread', hdigits rest' hcrop]

theorem scanExponent_cropped {cs cs' : List Char} {n : Numeral} (h : scanExponent n cs = none)
    (hcrop : Cropped cs cs') : scanExponent n cs' = none := by
  have hnone : exponentDigits cs = none := by
    unfold scanExponent at h
    split at h
    · assumption
    · contradiction
  simp only [scanExponent, exponentDigits_none hnone hcrop]

/-- Whether a point and a digit follow. -/
def startsFraction : List Char → Bool
  | p :: d :: _ => p = '.' && d.isDigit
  | _ => false

theorem startsFraction_eq_true {cs : List Char} (h : startsFraction cs = true) :
    ∃ d more, d.isDigit = true ∧ cs = '.' :: d :: more := by
  unfold startsFraction at h
  split at h
  · rename_i p d more
    simp only [Bool.and_eq_true, decide_eq_true_eq] at h
    obtain ⟨rfl, hd⟩ := h
    exact ⟨d, more, hd, rfl⟩
  · contradiction

theorem startsFraction_cropped {cs cs' : List Char} (h : startsFraction cs = false)
    (hcrop : Cropped cs cs') : startsFraction cs' = false := by
  refine Bool.eq_false_iff.mpr fun htrue => ?_
  obtain ⟨d, more, hd, rfl⟩ := startsFraction_eq_true htrue
  have hword : ∀ c ∈ ['.', d], isBlank c = false := by
    simpa using ⟨by decide, isBlank_of_isDigit hd⟩
  obtain ⟨behind, rfl⟩ := hcrop.of_begins hword ⟨more, rfl⟩
  simp [startsFraction, hd] at h

theorem scanDigits_eq (cs : List Char) :
    scanDigits cs =
      if startsFraction (takeDigits 10 cs).2 then
        (⟨ofDigits 10 ((takeDigits 10 cs).1 ++ (takeDigits 10 (takeDigits 10 cs).2.tail).1),
          -(takeDigits 10 (takeDigits 10 cs).2.tail).1.length, true⟩,
          (takeDigits 10 (takeDigits 10 cs).2.tail).2)
      else (⟨ofDigits 10 (takeDigits 10 cs).1, 0, false⟩, (takeDigits 10 cs).2) := by
  simp only [scanDigits]
  split
  · rename_i p d more hrest
    simp only [hrest, startsFraction, List.tail_cons]
  · rename_i hrest
    have hnone : startsFraction (takeDigits 10 cs).2 = false := by
      unfold startsFraction
      split
      · exact absurd ‹_› (hrest _ _ _)
      · rfl
    simp [hnone]

theorem scanDigits_takes (cs : List Char) :
    Takes (fun _ => scanDigits) (fun r => ((scanDigits cs).1, r)) cs (scanDigits cs).2 := by
  obtain ⟨whole, hcs, hwhole⟩ := takeDigits_takes (by decide : 10 ≤ 16) cs
  simp only [scanDigits_eq]
  by_cases hpoint : startsFraction (takeDigits 10 cs).2 = true
  · obtain ⟨d, more, hd, hrest⟩ := startsFraction_eq_true hpoint
    obtain ⟨fraction, hmore, hfraction⟩ :=
      takeDigits_takes_digit (by decide : 10 ≤ 16) (isDigitOf_ten hd) more
    simp only [if_pos hpoint]
    rw [hrest] at hcs hwhole ⊢
    rw [List.tail_cons]
    refine ⟨whole ++ '.' :: d :: fraction, ?_, fun start rest' hcrop => ?_⟩
    · rw [List.append_assoc, List.cons_append, List.cons_append, ← hmore]
      exact hcs
    · have hwhole' := hwhole start ('.' :: d :: (fraction ++ rest'))
        (hmore ▸ hcrop.append_left ('.' :: d :: fraction))
      have hpoint' : startsFraction ('.' :: d :: (fraction ++ rest')) = true := by
        simp [startsFraction, hd]
      rw [List.append_assoc, List.cons_append, List.cons_append]
      simp [scanDigits_eq, hwhole', hpoint', hfraction rest' hcrop]
  · refine ⟨whole, ?_, fun start rest' hcrop => ?_⟩
    · rw [if_neg hpoint]
      exact hcs
    · rw [if_neg hpoint] at hcrop ⊢
      have hnone := startsFraction_cropped (Bool.eq_false_iff.mpr hpoint) hcrop
      simp [scanDigits_eq, hwhole start rest' hcrop, hnone]

theorem finishNumber_takes {start cs rest : List Char} {n : Numeral} {l : Lexeme}
    (h : finishNumber start n cs = .ok (l, rest)) :
    cs = rest ∧ ∀ start' rest', finishNumber start' n rest' = .ok (l, rest') := by
  refine ⟨(length_finishNumber h).symm, fun start' rest' => ?_⟩
  unfold finishNumber at h ⊢
  repeat' split at h
  all_goals simp_all

theorem scanSuffix_cropped {start cs cs' : List Char} {n : Numeral}
    (h : scanSuffix start n cs = none) (hcrop : Cropped cs cs') (start' : List Char) :
    scanSuffix start' n cs' = none := by
  rw [scanSuffix_eq_none_iff] at h ⊢
  exact hcrop.head (fun _ => isBlank_of_isSuffixMark) h

/-- Behind an exponent, a suffix or nothing. -/
theorem ending_takes {start cs rest : List Char} {n : Numeral} {l : Lexeme}
    (h : (scanSuffix start n cs).getD (finishNumber start n cs) = .ok (l, rest)) :
    Takes (fun start cs => (scanSuffix start n cs).getD (finishNumber start n cs))
      (fun r => .ok (l, r)) cs rest := by
  cases hsuffix : scanSuffix start n cs with
  | none =>
    rw [hsuffix] at h
    obtain ⟨rfl, hfinish⟩ := finishNumber_takes h
    refine ⟨[], rfl, fun start' rest' hcrop => ?_⟩
    simp only [List.nil_append, scanSuffix_cropped hsuffix hcrop, Option.getD_none, hfinish]
  | some result =>
    rw [hsuffix, Option.getD_some] at h
    subst h
    obtain ⟨mark, rfl, hmark⟩ := scanSuffix_takes hsuffix
    refine ⟨mark, rfl, fun start' rest' hcrop => ?_⟩
    simp only [hmark start' rest' hcrop, Option.getD_some]

theorem scanDecimal_takes {cs rest : List Char} {l : Lexeme}
    (h : scanDecimal cs = .ok (l, rest)) :
    Takes (fun _ => scanDecimal) (fun r => .ok (l, r)) cs rest := by
  obtain ⟨digits, hcs, hdigits⟩ := scanDigits_takes cs
  simp only [scanDecimal] at h
  generalize scanDigits cs = read at *
  obtain ⟨n, mid⟩ := read
  -- behind the digits comes a suffix, or an exponent and perhaps a suffix behind it, or nothing
  split at h
  · rename_i result hsuffix
    subst h
    obtain ⟨mark, rfl, hmark⟩ := scanSuffix_takes hsuffix
    refine ⟨digits ++ mark, by rw [List.append_assoc]; exact hcs, fun start rest' hcrop => ?_⟩
    rw [List.append_assoc]
    simp only [scanDecimal, hdigits start _ (hcrop.append_left mark), hmark _ _ hcrop]
  · rename_i hsuffix
    split at h
    · rename_i hexponent
      obtain ⟨rfl, hfinish⟩ := finishNumber_takes h
      refine ⟨digits, hcs, fun start rest' hcrop => ?_⟩
      have hnone : scanExponent n rest' = none := scanExponent_cropped hexponent hcrop
      simp only [scanDecimal, hdigits start rest' hcrop, scanSuffix_cropped hsuffix hcrop, hnone,
        hfinish]
    · rename_i m behind hexponent
      obtain ⟨exponent, rfl, hscan⟩ := scanExponent_takes hexponent
      obtain ⟨mark, rfl, hmark⟩ := ending_takes h
      refine ⟨digits ++ (exponent ++ mark), ?_, fun start rest' hcrop => ?_⟩
      · simpa [List.append_assoc] using hcs
      · have hmid := hcrop.append_left mark
        have hbehind := hmid.append_left exponent
        have hnone := scanSuffix_cropped hsuffix hbehind
        rw [List.append_assoc, List.append_assoc]
        simp only [scanDecimal, hdigits start _ hbehind, hnone, hscan start _ hmid]
        exact hmark _ _ hcrop

theorem radixPrefix_eq_some_iff {cs digits : List Char} {radix : Nat} :
    radixPrefix cs = some (radix, digits) ↔
      ∃ mark, cs = '0' :: mark :: digits ∧
        ((mark = 'x' ∨ mark = 'X') ∧ radix = 16 ∨ (mark = 'b' ∨ mark = 'B') ∧ radix = 2) := by
  constructor
  · intro h
    unfold radixPrefix at h
    split at h
    · rename_i a mark rest
      split at h
      · contradiction
      · rename_i ha
        obtain rfl : a = '0' := Decidable.not_not.mp ha
        split at h
        · rename_i hmark
          cases h
          exact ⟨mark, rfl, .inl ⟨by simpa using hmark, rfl⟩⟩
        · split at h
          · rename_i hmark
            cases h
            exact ⟨mark, rfl, .inr ⟨by simpa using hmark, rfl⟩⟩
          · contradiction
    · contradiction
  · rintro ⟨mark, rfl, ⟨rfl | rfl, rfl⟩ | ⟨rfl | rfl, rfl⟩⟩ <;> rfl

theorem radixPrefix_cropped {cs cs' : List Char} (h : radixPrefix cs = none)
    (hcrop : Cropped cs cs') : radixPrefix cs' = none := by
  cases hsome : radixPrefix cs' with
  | none => rfl
  | some read =>
    obtain ⟨radix, digits⟩ := read
    obtain ⟨mark, rfl, hmark⟩ := radixPrefix_eq_some_iff.mp hsome
    have hword : ∀ c ∈ ['0', mark], isBlank c = false := by
      rcases hmark with ⟨rfl | rfl, -⟩ | ⟨rfl | rfl, -⟩ <;> simp [isBlank]
    obtain ⟨behind, rfl⟩ := hcrop.of_begins hword ⟨digits, rfl⟩
    have hread : radixPrefix ('0' :: mark :: behind) = some (radix, behind) :=
      radixPrefix_eq_some_iff.mpr ⟨mark, rfl, hmark⟩
    exact absurd (h.symm.trans hread) (by simp)

theorem scanNumber_takes {cs rest : List Char} {l : Lexeme} (h : scanNumber cs = .ok (l, rest)) :
    Takes (fun _ => scanNumber) (fun r => .ok (l, r)) cs rest := by
  unfold scanNumber at h
  cases hannounces : radixPrefix cs with
  | some read =>
    obtain ⟨radix, digits⟩ := read
    rw [hannounces] at h
    obtain ⟨mark, rfl, hmark⟩ := radixPrefix_eq_some_iff.mp hannounces
    have hradix : radix ≤ 16 := by omega
    obtain ⟨taken, rfl, htaken⟩ := scanRadix_takes hradix h
    refine ⟨'0' :: mark :: taken, rfl, fun start rest' hcrop => ?_⟩
    have hannounces' : radixPrefix ('0' :: mark :: (taken ++ rest')) = some (radix, taken ++ rest') :=
      radixPrefix_eq_some_iff.mpr ⟨mark, rfl, hmark⟩
    rw [List.cons_append, List.cons_append]
    simp only [scanNumber, hannounces']
    exact htaken _ _ hcrop
  | none =>
    rw [hannounces] at h
    obtain ⟨taken, rfl, htaken⟩ := scanDecimal_takes h
    refine ⟨taken, rfl, fun start rest' hcrop => ?_⟩
    have hannounces' := radixPrefix_cropped hannounces (hcrop.append_left taken)
    simp only [scanNumber, hannounces']
    exact htaken start rest' hcrop

/-! ### Strings and characters -/

/-- What a scanner makes of a text it makes of all that is taken, whatever follows that. -/
def Closed {α : Type} (scan : List Char → List Char → Scanned α) (cs : List Char) (a : α)
    (rest : List Char) : Prop :=
  ∃ taken, taken ≠ [] ∧ cs = taken ++ rest ∧
    ∀ start rest', scan start (taken ++ rest') = .ok (a, rest')

/-- What is taken in front of the rest, if the next character is known. -/
theorem Closed.step {α : Type} {scan scan' : List Char → List Char → Scanned α}
    {middle rest : List Char} {a : α} (h : Closed scan' middle a rest) (front : List Char)
    (hstep : ∀ c more, middle = c :: more →
      ∀ start more', scan start (front ++ c :: more') = scan' start (c :: more')) :
    Closed scan (front ++ middle) a rest := by
  obtain ⟨taken, hne, rfl, htaken⟩ := h
  obtain ⟨c, taken, rfl⟩ := List.exists_cons_of_ne_nil hne
  refine ⟨front ++ c :: taken, by simp, (List.append_assoc ..).symm, fun start rest' => ?_⟩
  rw [List.append_assoc, List.cons_append, hstep c (taken ++ rest) rfl]
  exact htaken start rest'

theorem scanEscape_closed {start cs rest : List Char} {value : Char}
    (h : scanEscape start cs = .ok (value, rest)) : Closed scanEscape cs value rest := by
  unfold scanEscape at h
  split at h
  · contradiction
  · rename_i c cs
    split at h
    · rename_i hc
      split at h
      · rename_i d₁ d₂ d₃ d₄ after
        split at h
        · rename_i hcode
          cases h
          refine ⟨[c, d₁, d₂, d₃, d₄], List.cons_ne_nil _ _, rfl, fun start' rest' => ?_⟩
          simp [scanEscape, hc, hcode]
        · contradiction
      · contradiction
    · rename_i hc
      split at h
      · rename_i hvalue
        cases h
        exact ⟨[c], List.cons_ne_nil _ _, rfl, fun start' rest' => by simp [scanEscape, hc, hvalue]⟩
      · contradiction

theorem takeHole_closed {state : HoleState} {cs source rest : List Char}
    (h : takeHole state cs = some (source, rest)) (rest' : List Char) :
    takeHole state (source ++ '\x7d' :: rest') = some (source, rest') := by
  rw [passesBy_through (through_of_takeHole h)]
  simp [takeHole]

/-- A string ends with its quotation mark. -/
theorem scanString_closed {start cs rest : List Char} {parts : List TemplatePart}
    {reversed : List Char} {l : Lexeme} (h : scanString start parts reversed cs = .ok (l, rest)) :
    Closed (fun start => scanString start parts reversed) cs l rest := by
  fun_induction scanString start parts reversed cs
  all_goals try contradiction
  case case3 parts reversed rest hline =>
    cases h
    exact ⟨['"'], List.cons_ne_nil _ _, rfl, fun start' rest' => scanString_close ..⟩
  case case5 parts reversed cs value after hescape _ _ ih =>
    obtain ⟨taken, hne, rfl, htaken⟩ := scanEscape_closed hescape
    obtain ⟨c, taken, rfl⟩ := List.exists_cons_of_ne_nil hne
    refine (ih h).step ('\\' :: c :: taken) fun d more _ start' more' => ?_
    exact scanString_backslash _ _ _ (htaken start' (d :: more'))
  case case6 =>
    rw [scanString.eq_def] at h
    contradiction
  case case8 parts reversed cs source after htake _ _ _ ih =>
    have hsplit : '$' :: '\x7b' :: cs = ('$' :: '\x7b' :: (source ++ ['\x7d'])) ++ after := by
      simp [takeHole_eq htake]
    rw [hsplit]
    refine (ih h).step _ fun d more _ start' more' => ?_
    have hhole := scanString_hole start' parts reversed (takeHole_closed htake (d :: more'))
    simpa using hhole
  case case9 parts reversed c cs hbrace hstart _ _ _ ih =>
    have hsplit : '$' :: c :: cs = ('$' :: c :: cs.takeWhile isIdentifierContinue) ++
        cs.dropWhile isIdentifierContinue := by
      simp
    rw [hsplit]
    refine (ih h).step _ fun d more hd start' more' => ?_
    have hend : (d :: more').head?.any isIdentifierContinue = false := by
      have hstop := head_dropWhile isIdentifierContinue cs
      rwa [hd] at hstop
    have hall : (cs.takeWhile isIdentifierContinue).all isIdentifierContinue = true :=
      List.all_takeWhile
    obtain ⟨htake, hdrop⟩ := takeWhile_stopped hall hend
    have hname := scanString_name start' parts reversed hstart
      (cs.takeWhile isIdentifierContinue ++ d :: more')
    rwa [htake, hdrop] at hname
  case case10 parts reversed c cs hbrace hstart _ _ _ ih =>
    refine (ih h).step ['$'] fun d more hd start' more' => ?_
    cases hd
    change scanString start' parts reversed ('$' :: c :: more') = _
    rw [scanString.eq_def]
    simp [hbrace, hstart]
  case case11 parts reversed c cs hline hquote hslash hdollar ih =>
    refine (ih h).step [c] fun d more _ start' more' => ?_
    change scanString start' parts reversed (c :: d :: more') = _
    rw [scanString.eq_def]
    simp [hline, hquote, hslash, hdollar]

theorem scanChar_closed {start cs rest : List Char} {l : Lexeme}
    (h : scanChar start cs = .ok (l, rest)) : Closed scanChar cs l rest := by
  cases cs with
  | nil => contradiction
  | cons c cs =>
    simp only [scanChar] at h
    split at h
    · contradiction
    · rename_i hline
      split at h
      · contradiction
      · rename_i hquote
        split at h
        · contradiction
        · rename_i value after hvalue
          split at h
          · rename_i hclose
            cases h
            obtain ⟨more, rfl⟩ := List.head?_eq_some_iff.mp hclose
            split at hvalue
            · rename_i hslash
              obtain ⟨taken, -, rfl, htaken⟩ := scanEscape_closed hvalue
              refine ⟨c :: (taken ++ ['\'']), List.cons_ne_nil _ _, by simp, fun start' rest' => ?_⟩
              simp [scanChar, hslash, htaken]
            · rename_i hslash
              cases hvalue
              refine ⟨[c, '\''], List.cons_ne_nil _ _, rfl, fun start' rest' => ?_⟩
              simp [scanChar, hline, hquote, hslash]
          · contradiction

/-! ### Symbols -/

/-- The text ends or goes on with a blank, at once or behind the rest. -/
inductive Paused (rest : List Char) : List Char → Prop
  | ends {s : List Char} (h : Pauses s) : Paused rest s
  | goesOn {s : List Char} (h : Pauses s) : Paused rest (rest ++ s)

theorem Paused.cropped {rest rest' : List Char} (h : Paused rest rest') : Cropped rest rest' := by
  cases h with
  | ends h => exact h.cropped rest
  | goesOn h => exact h.cropped_append rest

theorem behind_append (spelling rest : List Char) :
    behind spelling (spelling ++ rest) = some rest := by
  induction spelling with
  | nil => rfl
  | cons c spelling ih => simp [behind, ih]

theorem behind_eq_none_iff {spelling cs : List Char} :
    behind spelling cs = none ↔ ¬ spelling <+: cs := by
  constructor
  · rintro h ⟨rest, rfl⟩
    rw [behind_append] at h
    contradiction
  · intro h
    cases hsome : behind spelling cs with
    | none => rfl
    | some rest => exact absurd ⟨rest, (behind_eq hsome).symm⟩ h

theorem isBlank_of_spelling : ∀ e ∈ spellings, ∀ c ∈ e.1, isBlank c = false := by
  simp [spellings, isBlank]

theorem scanSymbol_takes {cs rest : List Char} {l : Lexeme}
    (h : scanSymbol cs = some (l, rest)) :
    ∃ spelling, (spelling, l) ∈ spellings ∧ cs = spelling ++ rest ∧
      ∀ rest', Cropped rest rest' → scanSymbol (spelling ++ rest') = some (l, rest') := by
  obtain ⟨before, ⟨spelling, l'⟩, after, hspellings, hfound, hbefore⟩ :=
    List.findSome?_eq_some_iff.mp h
  obtain ⟨rest', hbehind, he⟩ := Option.map_eq_some_iff.mp hfound
  cases he
  obtain rfl := behind_eq hbehind
  refine ⟨spelling, by simp [hspellings], rfl, fun rest' hcrop => ?_⟩
  refine List.findSome?_eq_some_iff.mpr ⟨before, (spelling, l), after, hspellings, ?_, ?_⟩
  · simp [behind_append]
  · intro e he
    have hnone := hbefore e he
    simp only [Option.map_eq_none_iff, behind_eq_none_iff] at hnone ⊢
    have hblank := isBlank_of_spelling e (by simp [hspellings, he])
    exact fun hp => hnone ((hcrop.append_left spelling).of_begins hblank hp)

/-- The words that begin with an exclamation mark. -/
def negations : List (List Char × Lexeme) :=
  [(['!', 'i', 's'], .keyword .notIsType), (['!', 'i', 'n'], .keyword .notInside)]

theorem scanNegated_eq_some_iff {cs rest : List Char} {l : Lexeme} :
    scanNegated cs = some (l, rest) ↔
      ∃ word, (word, l) ∈ negations ∧ cs = word ++ rest ∧
        rest.head?.any isIdentifierContinue = false := by
  constructor
  · intro h
    obtain ⟨⟨word, l'⟩, hword, hfound⟩ := List.exists_of_findSome?_eq_some h
    simp only at hfound
    split at hfound
    · rename_i rest' hbehind
      split at hfound
      · contradiction
      · rename_i hend
        cases hfound
        exact ⟨word, hword, behind_eq hbehind, Bool.eq_false_iff.mpr hend⟩
    · contradiction
  · rintro ⟨word, hword, rfl, hend⟩
    simp only [negations, List.mem_cons, List.not_mem_nil, or_false, Prod.mk.injEq] at hword
    rcases hword with ⟨rfl, rfl⟩ | ⟨rfl, rfl⟩ <;> simp [scanNegated, behind, hend]

theorem isBlank_of_negation : ∀ e ∈ negations, ∀ c ∈ e.1, isBlank c = false := by
  simp [negations, isBlank]

theorem negation_not_begins : ∀ e ∈ negations, ∀ e' ∈ spellings, ¬ e.1 <+: e'.1 := by
  decide

theorem isBlank_of_isIdentifierContinue {c : Char} (h : isIdentifierContinue c = true) :
    isBlank c = false := by
  refine Bool.eq_false_iff.mpr fun hblank => ?_
  rw [isIdentifierContinue_of_isBlank hblank] at h
  contradiction

/-- No word that begins with an exclamation mark comes about by a pause. -/
theorem scanNegated_paused {spelling rest rest' : List Char} {l : Lexeme}
    (h : scanNegated (spelling ++ rest) = none) (hspelling : (spelling, l) ∈ spellings)
    (hpause : Paused rest rest') : scanNegated (spelling ++ rest') = none := by
  cases hsome : scanNegated (spelling ++ rest') with
  | none => rfl
  | some read =>
    obtain ⟨l', behind⟩ := read
    obtain ⟨word, hword, hsame, hend⟩ := scanNegated_eq_some_iff.mp hsome
    have hblank := isBlank_of_negation _ hword
    cases hpause with
    | ends hs =>
      -- the word would be part of the spelling
      have hbegins : word <+: spelling ++ [] :=
        (hs.cropped []).append_left spelling |>.of_begins hblank ⟨behind, hsame.symm⟩
      rw [List.append_nil] at hbegins
      exact absurd hbegins (negation_not_begins _ hword _ hspelling)
    | @goesOn s hs =>
      have hbegins : word <+: spelling ++ rest :=
        (hs.cropped_append rest).append_left spelling |>.of_begins hblank ⟨behind, hsame.symm⟩
      obtain ⟨behind', hbehind'⟩ := hbegins
      have hrest : behind = behind' ++ s := by
        rw [← List.append_assoc, ← hbehind', List.append_assoc] at hsame
        exact (List.append_cancel_left hsame).symm
      have hend' : behind'.head?.any isIdentifierContinue = false := by
        cases behind' with
        | nil => rfl
        | cons c more => simpa [hrest] using hend
      have hread := scanNegated_eq_some_iff.mpr ⟨word, hword, hbehind'.symm, hend'⟩
      rw [h] at hread
      contradiction

theorem scanMark_takes {cs rest : List Char} {l : Lexeme}
    (h : (scanNegated cs <|> scanSymbol cs) = some (l, rest)) :
    ∃ taken, taken ≠ [] ∧ cs = taken ++ rest ∧
      ∀ rest', Paused rest rest' →
        (scanNegated (taken ++ rest') <|> scanSymbol (taken ++ rest')) = some (l, rest') := by
  cases hnegated : scanNegated cs with
  | some read =>
    rw [hnegated] at h
    cases h
    obtain ⟨word, hword, rfl, hend⟩ := scanNegated_eq_some_iff.mp hnegated
    refine ⟨word, ?_, rfl, fun rest' hpause => ?_⟩
    · exact (by decide : ∀ e ∈ negations, e.1 ≠ []) _ hword
    · have hend' := hpause.cropped.head (fun _ => isBlank_of_isIdentifierContinue) hend
      rw [scanNegated_eq_some_iff.mpr ⟨word, hword, rfl, hend'⟩]
      rfl
  | none =>
    rw [hnegated] at h
    obtain ⟨spelling, hspelling, rfl, hscan⟩ := scanSymbol_takes h
    refine ⟨spelling, ?_, rfl, fun rest' hpause => ?_⟩
    · exact (by decide : ∀ e ∈ spellings, e.1 ≠ []) _ hspelling
    · rw [scanNegated_paused hnegated hspelling hpause, hscan rest' hpause.cropped]
      rfl

/-! ### Lexemes -/

/-- A lexeme is read in the same way where the text ends behind it or has a blank there, and where
the text goes on with a blank behind its end. -/
theorem scanLexeme_takes {cs rest : List Char} {l : Lexeme} (hcs : cs ≠ [])
    (h : scanLexeme cs = .ok (l, rest)) :
    ∃ taken, taken ≠ [] ∧ cs = taken ++ rest ∧
      ∀ rest', Paused rest rest' → scanLexeme (taken ++ rest') = .ok (l, rest') := by
  obtain ⟨c, cs, rfl⟩ := List.exists_cons_of_ne_nil hcs
  simp only [scanLexeme] at h
  split at h
  · rename_i hquote
    obtain ⟨taken, -, rfl, htaken⟩ := scanString_closed h
    refine ⟨c :: taken, List.cons_ne_nil _ _, rfl, fun rest' _ => ?_⟩
    simp only [List.cons_append, scanLexeme, if_pos hquote, htaken]
  · rename_i hquote
    split at h
    · rename_i happ
      obtain ⟨taken, -, rfl, htaken⟩ := scanChar_closed h
      refine ⟨c :: taken, List.cons_ne_nil _ _, rfl, fun rest' _ => ?_⟩
      simp only [List.cons_append, scanLexeme, if_neg hquote, if_pos happ, htaken]
    · rename_i happ
      split at h
      · rename_i hdigit
        obtain ⟨taken, htaken, hrun⟩ := scanNumber_takes h
        have hlt : rest.length < (c :: cs).length := length_scanNumber hdigit h
        obtain ⟨d, taken, rfl⟩ : ∃ d more, taken = d :: more := by
          refine List.exists_cons_of_ne_nil ?_
          rintro rfl
          rw [htaken] at hlt
          exact Nat.lt_irrefl _ hlt
        obtain ⟨rfl, rfl⟩ := List.cons.inj htaken
        refine ⟨c :: taken, List.cons_ne_nil _ _, rfl, fun rest' hpause => ?_⟩
        have hrun' := hrun [] rest' hpause.cropped
        simpa only [List.cons_append, scanLexeme, if_neg hquote, if_neg happ, if_pos hdigit]
          using hrun'
      · rename_i hdigit
        split at h
        · rename_i hstart
          cases h
          refine ⟨c :: cs.takeWhile isIdentifierContinue, List.cons_ne_nil _ _, by simp,
            fun rest' hpause => ?_⟩
          have hend := hpause.cropped.head (fun _ => isBlank_of_isIdentifierContinue)
            (head_dropWhile isIdentifierContinue cs)
          have hall : (cs.takeWhile isIdentifierContinue).all isIdentifierContinue = true :=
            List.all_takeWhile
          obtain ⟨htake, hdrop⟩ := takeWhile_stopped hall hend
          simp only [List.cons_append, scanLexeme, if_neg hquote, if_neg happ, if_neg hdigit,
            if_pos hstart, htake, hdrop]
        · rename_i hstart
          split at h
          · rename_i scanned hscan
            cases h
            obtain ⟨taken, hne, htaken, hrun⟩ := scanMark_takes hscan
            obtain ⟨d, taken, rfl⟩ := List.exists_cons_of_ne_nil hne
            obtain ⟨rfl, rfl⟩ := List.cons.inj htaken
            refine ⟨c :: taken, List.cons_ne_nil _ _, rfl, fun rest' hpause => ?_⟩
            have hrun' := hrun rest' hpause
            rw [List.cons_append] at hrun'
            simp only [List.cons_append, scanLexeme, if_neg hquote, if_neg happ, if_neg hdigit,
              if_neg hstart, hrun']
          · contradiction

end Debugger.Syntax
