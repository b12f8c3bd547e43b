import Mathlib.Data.List.Chain
import Debugger.Breakpoint.Gate
import Debugger.Proofs.Lexing

/-!
Log messages as bodies of string literals. Quoting a message and reading it back gives its parts,
but the escapes for the literal are put into the holes as well.
-/

namespace Debugger.Syntax

open Text Gate

/-! ### Messages -/

/-- A part as it stands in a message. -/
def TemplatePart.written : TemplatePart → List Char
  | .text s => s.toList
  | .name n => '$' :: n.toList
  | .hole source => '$' :: '\x7b' :: (source.toList ++ ['\x7d'])

def TemplatePart.isText : TemplatePart → Bool
  | .text _ => true
  | .name _ | .hole _ => false

/-- The message that consists of the parts. -/
def messageOf (parts : List TemplatePart) : String :=
  String.ofList (parts.flatMap (·.written))

/-- Where so many braces are open, the text closes all of them and those that it opens itself. What
stands behind a quotation mark does not count. -/
def enclosed : Nat → List Char → Bool
  | depth, [] => depth = 0
  | depth, c :: cs =>
    if c = '"' then true
    else if c = '\x7b' then enclosed (depth + 1) cs
    else if c = '\x7d' then 0 < depth && enclosed (depth - 1) cs
    else enclosed depth cs

/-- Text is not empty and has no dollar sign, and a name is a word. A hole may have any source. -/
def TemplatePart.valid : TemplatePart → Bool
  | .text s => s ≠ "" && '$' ∉ s.toList
  | .name n => isWord n
  | .hole _ => true

/-- What may stand next to each other and is not read as one. -/
def TemplatePart.apart : TemplatePart → TemplatePart → Bool
  | .text _, .text _ => false
  | .name _, .text s => !s.toList.head?.any isIdentifierContinue
  | _, _ => true

/-- Parts that can be told from the message that they make up. -/
structure MessageParts (parts : List TemplatePart) : Prop where
  valid : ∀ p ∈ parts, p.valid = true
  apart : parts.IsChain (·.apart ·)

/-- Whether no brace in a hole ends it and none is left open. -/
def TemplatePart.closes : TemplatePart → Bool
  | .hole source => enclosed 0 source.toList
  | .text _ | .name _ => true

/-- Whether there is a quotation mark in a hole. -/
def TemplatePart.quotes : TemplatePart → Bool
  | .hole source => '"' ∈ source.toList
  | .text _ | .name _ => false

/-- Whether a hole closes, and nothing in it is escaped in a literal. -/
def TemplatePart.readable : TemplatePart → Bool
  | .hole source => enclosed 0 source.toList && source.toList.all fun c => escape c = [c]
  | .text _ | .name _ => true

/-- A part as it is found in the literal of the message: the source of a hole has been escaped with
the rest, and nothing takes that back. -/
def TemplatePart.inLiteral : TemplatePart → TemplatePart
  | .hole source => .hole (String.ofList (source.toList.flatMap escape))
  | p => p

/-- How a literal with these parts is read. -/
def messageLexeme (parts : List TemplatePart) : Lexeme :=
  if parts.all (·.isText) then .literal (.string (messageOf parts)) else .template parts

/-! ### Holes -/

/-- The hole goes on with the text, and what is taken of it stands in front of what is taken from
the state behind it. -/
def PassesBy (state : HoleState) (cs : List Char) (after : HoleState) : Prop :=
  ∀ rest, takeHole state (cs ++ rest) =
    (takeHole after rest).map fun (source, r) => (cs ++ source, r)

theorem PassesBy.append {state middle after : HoleState} {cs ds : List Char}
    (h : PassesBy state cs middle) (h' : PassesBy middle ds after) :
    PassesBy state (cs ++ ds) after := by
  intro rest
  rw [List.append_assoc, h, h', Option.map_map]
  simp [Function.comp_def]

theorem passesBy_escape {c : Char} (hquote : c ≠ '"') (hopen : c ≠ '\x7b')
    (hclose : c ≠ '\x7d') (depth : Nat) : PassesBy (.code depth) (escape c) (.code depth) := by
  intro rest
  unfold escape
  split
  case h_2 => contradiction
  case h_6 => simp [takeHole, hquote, hopen, hclose]
  all_goals simp [takeHole, Function.comp_def]

theorem passesBy_open (depth : Nat) :
    PassesBy (.code depth) ['\x7b'] (.code (depth + 1)) := by
  intro rest
  simp [takeHole]

theorem passesBy_close {depth : Nat} (h : 0 < depth) :
    PassesBy (.code depth) ['\x7d'] (.code (depth - 1)) := by
  intro rest
  have hne : depth ≠ 0 := by omega
  simp [takeHole, hne]

/-- Inside a nested string, escaped text does not end it. -/
theorem passesBy_quoted (depth : Nat) (cs : List Char) :
    PassesBy (.quoted depth) (cs.flatMap escape) (.quoted depth) := by
  induction cs with
  | nil =>
    intro rest
    simp
  | cons c cs ih =>
    rw [List.flatMap_cons]
    refine PassesBy.append ?_ ih
    intro rest
    unfold escape
    split
    case h_6 hslash hquote _ _ _ => simp [takeHole, if_neg hslash, if_neg hquote]
    all_goals simp [takeHole, Function.comp_def]

/-- Up to the first quotation mark the hole is code; without one, it ends at its brace. -/
theorem passesBy_enclosed {depth : Nat} {cs : List Char} (h : enclosed depth cs = true) :
    ('"' ∉ cs ∧ PassesBy (.code depth) (cs.flatMap escape) (.code 0)) ∨
      ∃ before after inner, cs = before ++ '"' :: after ∧
        PassesBy (.code depth) (before.flatMap escape) (.code inner) := by
  induction cs generalizing depth with
  | nil =>
    obtain rfl : depth = 0 := by simpa [enclosed] using h
    exact .inl ⟨List.not_mem_nil, fun rest => by simp⟩
  | cons c cs ih =>
    by_cases hquote : c = '"'
    · subst hquote
      exact .inr ⟨[], cs, depth, rfl, fun rest => by simp⟩
    obtain ⟨middle, hc, hcs⟩ : ∃ middle,
        PassesBy (.code depth) (escape c) (.code middle) ∧ enclosed middle cs = true := by
      simp only [enclosed, hquote, ↓reduceIte] at h
      split at h
      · rename_i hopen
        subst hopen
        exact ⟨depth + 1, passesBy_open depth, h⟩
      · split at h
        · rename_i hclose
          subst hclose
          simp only [Bool.and_eq_true, decide_eq_true_eq] at h
          exact ⟨depth - 1, passesBy_close h.1, h.2⟩
        · rename_i hopen hclose
          exact ⟨depth, passesBy_escape hquote hopen hclose depth, h⟩
    obtain ⟨hno, hpass⟩ | ⟨before, after, inner, rfl, hpass⟩ := ih hcs
    · refine .inl ⟨List.not_mem_cons_of_ne_of_not_mem (Ne.symm hquote) hno, ?_⟩
      rw [List.flatMap_cons]
      exact hc.append hpass
    · refine .inr ⟨c :: before, after, inner, rfl, ?_⟩
      rw [List.flatMap_cons]
      exact hc.append hpass

/-- Without a quotation mark in it, a hole ends with the brace behind it. -/
theorem takeHole_enclosed {cs : List Char} (h : enclosed 0 cs = true) (hquote : '"' ∉ cs)
    (rest : List Char) :
    takeHole (.code 0) (cs.flatMap escape ++ '\x7d' :: rest) = some (cs.flatMap escape, rest) := by
  obtain ⟨-, hpass⟩ | ⟨before, after, inner, rfl, -⟩ := passesBy_enclosed h
  · rw [hpass]
    simp [takeHole]
  · simp at hquote

/-- A quotation mark opens a nested string, which nothing but the end of the literal closes. -/
theorem takeHole_quote {cs : List Char} (h : enclosed 0 cs = true) (hquote : '"' ∈ cs)
    (rest : List Char) :
    takeHole (.code 0) (cs.flatMap escape ++ (rest.flatMap escape ++ ['"'])) = none := by
  obtain ⟨hno, -⟩ | ⟨before, after, inner, rfl, hpass⟩ := passesBy_enclosed h
  · exact absurd hquote hno
  · have hinside := passesBy_quoted inner (after ++ rest) ['"']
    rw [List.flatMap_append, List.flatMap_cons, List.append_assoc, hpass, List.append_assoc,
      ← List.append_assoc (after.flatMap escape), ← List.flatMap_append]
    simp only [escape, List.cons_append, List.nil_append, takeHole, Char.reduceEq, ↓reduceIte,
      hinside, Bool.and_eq_true, decide_eq_true_eq, false_and, Option.map_none]

/-- A hole that is taken as it stands closes its braces. -/
theorem enclosed_of_takeHole {depth : Nat} {cs rest after : List Char}
    (h : takeHole (.code depth) (cs ++ '\x7d' :: rest) = some (cs, after)) :
    enclosed depth cs = true := by
  induction cs generalizing depth with
  | nil =>
    by_contra hne
    simp_all [takeHole, enclosed]
  | cons c cs ih =>
    rw [List.cons_append, takeHole] at h
    unfold enclosed
    split at h
    · simp at h
    · rename_i hend
      obtain ⟨⟨s, r⟩, hs, he⟩ := Option.map_eq_some_iff.mp h
      obtain ⟨rfl, rfl⟩ : s = cs ∧ r = after := by simpa using he
      split
      · rfl
      · rename_i hquote
        split
        · rename_i hopen
          simp only [hopen, Char.reduceEq, ↓reduceIte] at hs
          exact ih hs
        · rename_i hopen
          split
          · rename_i hclose
            simp only [hclose, ↓reduceIte] at hs
            have hdepth : 0 < depth := by simpa [hclose, Nat.pos_iff_ne_zero] using hend
            rw [decide_eq_true hdepth, Bool.true_and]
            exact ih hs
          · rename_i hclose
            simp only [hclose, hopen, hquote, ↓reduceIte] at hs
            exact ih hs

/-- Escaping only adds backslashes, and a text has no more of them than itself. -/
theorem replicate_append_ne (n : Nat) (cs rest rest' : List Char) :
    List.replicate (n + 1) '\\' ++ (cs.flatMap escape ++ rest) ≠ cs ++ '\x7d' :: rest' := by
  induction cs generalizing n with
  | nil =>
    intro h
    exact absurd (List.head_eq_of_cons_eq h) (by decide)
  | cons c cs ih =>
    intro h
    obtain ⟨rfl, h⟩ := List.cons.inj h
    refine ih (n + 1) (Eq.trans ?_ h)
    rw [List.flatMap_cons]
    simp [escape, List.replicate_succ']

/-- What stands in front of a brace unescaped, but was escaped, has nothing to escape. -/
theorem escape_of_prefix {cs rest rest' : List Char}
    (h : cs.flatMap escape ++ rest = cs ++ '\x7d' :: rest') : ∀ c ∈ cs, escape c = [c] := by
  induction cs with
  | nil => simp
  | cons c cs ih =>
    rw [List.flatMap_cons, List.append_assoc] at h
    by_cases hc : escape c = [c]
    · rw [hc] at h
      exact List.forall_mem_cons.mpr ⟨hc, ih (List.cons.inj h).2⟩
    · unfold escape at h hc
      split at hc
      case h_1 => exact absurd (List.cons.inj h).2 (replicate_append_ne 0 cs rest rest')
      case h_6 => contradiction
      all_goals exact absurd (List.head_eq_of_cons_eq h) (by decide)

/-! ### Reading a literal -/

section Scan

variable (start : List Char) (parts : List TemplatePart) (reversed : List Char)

theorem scanString_close (rest : List Char) :
    scanString start parts reversed ('"' :: rest) = .ok (closeString parts reversed, rest) := by
  rw [scanString.eq_def]
  rfl

theorem scanString_other {c : Char} (hquote : c ≠ '"') (hslash : c ≠ '\\') (hline : c ≠ '\n')
    (hdollar : c ≠ '$') (rest : List Char) :
    scanString start parts reversed (c :: rest) =
      scanString start parts (c :: reversed) rest := by
  rw [scanString.eq_def]
  simp only [hline, hquote, hslash, hdollar, ↓reduceIte]

theorem scanString_plain {c : Char} (h : escape c = [c]) (hdollar : c ≠ '$') (rest : List Char) :
    scanString start parts reversed (c :: rest) =
      scanString start parts (c :: reversed) rest := by
  have hline : c ≠ '\n' := by rintro rfl; contradiction
  have hquote : c ≠ '"' := by rintro rfl; contradiction
  have hslash : c ≠ '\\' := by rintro rfl; contradiction
  exact scanString_other start parts reversed hquote hslash hline hdollar rest

theorem scanString_backslash {c value : Char} {rest after : List Char}
    (h : scanEscape start (c :: rest) = .ok (value, after)) :
    scanString start parts reversed ('\\' :: c :: rest) =
      scanString start parts (value :: reversed) after := by
  rw [scanString.eq_def]
  simp only [Char.reduceEq, ↓reduceIte]
  split <;> simp_all

/-- An escaped character is read back as itself. -/
theorem scanString_escape {c : Char} (hdollar : c ≠ '$') (rest : List Char) :
    scanString start parts reversed (escape c ++ rest) =
      scanString start parts (c :: reversed) rest := by
  by_cases hplain : escape c = [c]
  · rw [hplain]
    exact scanString_plain start parts reversed hplain hdollar rest
  · unfold escape at hplain ⊢
    split at hplain
    case h_6 => contradiction
    all_goals exact scanString_backslash start parts reversed rfl

theorem scanString_text {s : List Char} (hdollar : '$' ∉ s) (rest : List Char) :
    scanString start parts reversed (s.flatMap escape ++ rest) =
      scanString start parts (s.reverse ++ reversed) rest := by
  induction s generalizing reversed with
  | nil => rfl
  | cons c s ih =>
    obtain ⟨hc, hs⟩ := List.ne_and_not_mem_of_not_mem_cons hdollar
    rw [List.flatMap_cons, List.append_assoc, scanString_escape start parts reversed hc.symm,
      ih _ hs]
    simp

theorem scanString_name {c : Char} (hc : isIdentifierStart c = true) (rest : List Char) :
    scanString start parts reversed ('$' :: c :: rest) =
      scanString start
        (parts ++ textPart reversed ++
          [.name (String.ofList (c :: rest.takeWhile isIdentifierContinue))])
        [] (rest.dropWhile isIdentifierContinue) := by
  have hbrace : c ≠ '\x7b' := by rintro rfl; contradiction
  rw [scanString.eq_def]
  simp [hbrace, hc]

theorem scanString_openHole {rest : List Char} (h : takeHole (.code 0) rest = none) :
    scanString start parts reversed ('$' :: '\x7b' :: rest) =
      .error ⟨.unterminatedTemplate, rest⟩ := by
  rw [scanString.eq_def]
  simp only [Char.reduceEq, ↓reduceIte]
  split <;> simp_all

theorem scanString_hole {rest source after : List Char}
    (h : takeHole (.code 0) rest = some (source, after)) :
    scanString start parts reversed ('$' :: '\x7b' :: rest) =
      scanString start (parts ++ textPart reversed ++ [.hole (String.ofList source)]) [] after := by
  rw [scanString.eq_def]
  simp only [Char.reduceEq, ↓reduceIte]
  split <;> simp_all

/-- What is read so far stays in front, once it is more than text. -/
theorem scanString_template {start : List Char} {parts : List TemplatePart}
    {reversed cs rest : List Char} {l : Lexeme}
    (h : scanString start parts reversed cs = .ok (l, rest)) (hparts : parts ≠ []) :
    ∃ more, l = .template (parts ++ more) := by
  fun_induction scanString start parts reversed cs
  case case3 =>
    cases h
    exact ⟨_, by rw [closeString, if_neg (by simpa using hparts)]⟩
  case case8 ih | case9 ih =>
    obtain ⟨more, rfl⟩ := ih h (by simp)
    exact ⟨_, by rw [List.append_assoc, List.append_assoc]⟩
  case case5 ih | case6 ih | case10 ih | case11 ih => exact ih h hparts
  all_goals contradiction

end Scan

/-! ### Messages in literals -/

theorem textPart_reverse {s : String} (hs : s ≠ "") : textPart s.toList.reverse = [.text s] := by
  have hne : s.toList ≠ [] := by simpa using hs
  simp [textPart, hne]

theorem escape_of_isIdentifierContinue {c : Char} (h : isIdentifierContinue c = true) :
    escape c = [c] := by
  unfold escape
  split
  case h_6 => rfl
  all_goals contradiction

/-- The escape of a character continues no name that the character would not continue. -/
theorem escape_head {c : Char} (h : isIdentifierContinue c = false) (rest : List Char) :
    (escape c ++ rest).head?.any isIdentifierContinue = false := by
  unfold escape
  split
  case h_6 => exact h
  all_goals rfl

/-- Text in which nothing is escaped stands in a literal as it is. -/
theorem flatMap_escape {cs : List Char} (h : ∀ c ∈ cs, escape c = [c]) :
    cs.flatMap escape = cs := by
  rw [List.flatMap_def, List.map_congr_left h, ← List.flatMap_def, List.flatMap_singleton']

/-- The parts as they stand in a literal, and what stands behind them. -/
def literalOf (parts : List TemplatePart) (rest : List Char) : List Char :=
  (parts.flatMap (·.written)).flatMap escape ++ rest

theorem literalOf_cons (p : TemplatePart) (parts : List TemplatePart) (rest : List Char) :
    literalOf (p :: parts) rest = p.written.flatMap escape ++ literalOf parts rest := by
  simp only [literalOf, List.flatMap_cons, List.flatMap_append, List.append_assoc]

theorem literalOf_append (front back : List TemplatePart) (rest : List Char) :
    literalOf (front ++ back) rest = literalOf front (literalOf back rest) := by
  simp only [literalOf, List.flatMap_append, List.append_assoc]

theorem literalOf_hole (source : String) (parts : List TemplatePart) (rest : List Char) :
    literalOf (.hole source :: parts) rest =
      '$' :: '\x7b' :: (source.toList.flatMap escape ++ '\x7d' :: literalOf parts rest) := by
  simp [literalOf, TemplatePart.written, escape]

theorem MessageParts.tail {p : TemplatePart} {parts : List TemplatePart}
    (h : MessageParts (p :: parts)) : MessageParts parts :=
  ⟨fun q hq => h.valid q (List.mem_cons_of_mem p hq), h.apart.tail⟩

/-- What stands behind a name is not read as its continuation. -/
theorem literalOf_head {n : String} {parts : List TemplatePart}
    (h : MessageParts (.name n :: parts)) {rest : List Char}
    (hrest : rest.head?.any isIdentifierContinue = false) :
    (literalOf parts rest).head?.any isIdentifierContinue = false := by
  cases parts with
  | nil => exact hrest
  | cons p parts =>
    have hapart := (List.isChain_cons_cons.mp h.apart).1
    have hvalid := h.valid p (by simp)
    rw [literalOf_cons]
    cases p with
    | name | hole => rfl
    | text s =>
      obtain ⟨c, cs, hs⟩ : ∃ c cs, s.toList = c :: cs := by
        apply List.exists_cons_of_ne_nil
        intro hnil
        simp [TemplatePart.valid, String.toList_eq_nil_iff.mp hnil] at hvalid
      have hc : isIdentifierContinue c = false := by
        simpa [TemplatePart.apart, hs] using hapart
      simp only [TemplatePart.written, hs, List.flatMap_cons, List.append_assoc]
      exact escape_head hc _

/-- No text follows on text. -/
theorem MessageParts.next {s : String} {parts : List TemplatePart}
    (h : MessageParts (.text s :: parts)) : parts.head?.any (·.isText) = false := by
  cases parts with
  | nil => rfl
  | cons p parts =>
    have hapart := (List.isChain_cons_cons.mp h.apart).1
    cases p with
    | text => contradiction
    | name | hole => rfl

/-- What was read so far has a name or a hole in it, unless nothing was. -/
def Opened (before : List TemplatePart) : Prop :=
  before = [] ∨ before.all (·.isText) = false

theorem Opened.append (before : List TemplatePart) {p : TemplatePart} (hp : p.isText = false) :
    Opened (before ++ [p]) := by
  right
  simp [hp]

theorem closeString_eq {before : List TemplatePart} (h : Opened before) (reversed : List Char) :
    closeString before reversed = messageLexeme (before ++ textPart reversed) := by
  obtain rfl | hmixed := h
  · cases reversed with
    | nil => rfl
    | cons c cs => simp [closeString, messageLexeme, textPart, messageOf, TemplatePart.isText,
        TemplatePart.written]
  · have hne : before ≠ [] := by
      rintro rfl
      contradiction
    simp [closeString, messageLexeme, hne, hmixed]

section Parts

variable (start : List Char) (before : List TemplatePart) (reversed : List Char)
  {parts : List TemplatePart} {rest : List Char}

theorem scanString_textPart {s : String} (h : MessageParts (.text s :: parts)) :
    scanString start before reversed (literalOf (.text s :: parts) rest) =
      scanString start before (s.toList.reverse ++ reversed) (literalOf parts rest) := by
  have hvalid := h.valid (.text s) List.mem_cons_self
  simp only [TemplatePart.valid, Bool.and_eq_true, decide_eq_true_eq] at hvalid
  rw [literalOf_cons, TemplatePart.written, scanString_text start before reversed hvalid.2]

theorem scanString_namePart {n : String} (h : MessageParts (.name n :: parts))
    (hrest : rest.head?.any isIdentifierContinue = false) :
    scanString start before reversed (literalOf (.name n :: parts) rest) =
      scanString start (before ++ textPart reversed ++ [.name n]) [] (literalOf parts rest) := by
  have hvalid := h.valid (.name n) List.mem_cons_self
  obtain ⟨c, cs, hn⟩ : ∃ c cs, n.toList = c :: cs := by
    apply List.exists_cons_of_ne_nil
    intro hnil
    simp [TemplatePart.valid, isWord, hnil] at hvalid
  obtain ⟨hc, hword⟩ :
      isIdentifierStart c = true ∧ ∀ d ∈ c :: cs, isIdentifierContinue d = true := by
    simpa [TemplatePart.valid, isWord, hn] using hvalid
  have hwritten : literalOf (.name n :: parts) rest = '$' :: c :: (cs ++ literalOf parts rest) := by
    rw [literalOf_cons, TemplatePart.written, List.flatMap_cons, hn,
      flatMap_escape fun d hd => escape_of_isIdentifierContinue (hword d hd)]
    rfl
  have hmore : cs.all isIdentifierContinue = true :=
    List.all_eq_true.mpr fun d hd => hword d (List.mem_cons_of_mem c hd)
  obtain ⟨htake, hdrop⟩ := takeWhile_stopped hmore (literalOf_head h hrest)
  rw [hwritten, scanString_name start before reversed hc, htake, hdrop, ← hn, String.ofList_toList]

theorem scanString_holePart {source : String} (hclose : (TemplatePart.hole source).closes = true)
    (hquote : (TemplatePart.hole source).quotes = false) :
    scanString start before reversed (literalOf (.hole source :: parts) rest) =
      scanString start (before ++ textPart reversed ++ [(TemplatePart.hole source).inLiteral]) []
        (literalOf parts rest) := by
  have hend := takeHole_enclosed hclose (by simpa [TemplatePart.quotes] using hquote)
    (literalOf parts rest)
  rw [literalOf_hole, scanString_hole start before reversed hend, TemplatePart.inLiteral]

end Parts

/-- Parts whose holes close and have no quotation marks are read up to what stands behind them,
whichever way the reading goes on there. -/
theorem scanString_parts (start : List Char) {before parts : List TemplatePart}
    (reversed rest : List Char) (hbefore : Opened before) (h : MessageParts parts)
    (hcloses : ∀ p ∈ parts, p.closes = true) (hquotes : ∀ p ∈ parts, p.quotes = false)
    (hfirst : reversed ≠ [] → parts.head?.any (·.isText) = false)
    (hrest : rest.head?.any isIdentifierContinue = false) :
    ∃ before' reversed', Opened before' ∧
      before' ++ textPart reversed' = before ++ textPart reversed ++ parts.map (·.inLiteral) ∧
      scanString start before reversed (literalOf parts rest) =
        scanString start before' reversed' rest := by
  induction parts generalizing before reversed with
  | nil => exact ⟨before, reversed, hbefore, by simp, rfl⟩
  | cons p parts ih =>
    have hvalid := h.valid p List.mem_cons_self
    obtain ⟨hclose, hclosed⟩ := List.forall_mem_cons.mp hcloses
    obtain ⟨hquote, hothers⟩ := List.forall_mem_cons.mp hquotes
    cases p with
    | text s =>
      obtain rfl : reversed = [] := by
        by_contra hne
        have := hfirst hne
        contradiction
      simp only [TemplatePart.valid, Bool.and_eq_true, decide_eq_true_eq] at hvalid
      obtain ⟨before', reversed', hopened, hparts, hread⟩ :=
        ih (s.toList.reverse ++ []) hbefore h.tail hclosed hothers fun _ => h.next
      refine ⟨before', reversed', hopened, ?_, (scanString_textPart start before [] h).trans hread⟩
      rw [hparts, List.append_nil, textPart_reverse hvalid.1]
      simp [textPart, TemplatePart.inLiteral]
    | name n =>
      have hopened : Opened (before ++ textPart reversed ++ [.name n]) := .append _ rfl
      obtain ⟨before', reversed', hopened', hparts, hread⟩ :=
        ih [] hopened h.tail hclosed hothers (absurd rfl)
      refine ⟨before', reversed', hopened', ?_,
        (scanString_namePart start before reversed h hrest).trans hread⟩
      rw [hparts]
      simp [textPart, TemplatePart.inLiteral]
    | hole source =>
      have hopened : Opened (before ++ textPart reversed ++
          [(TemplatePart.hole source).inLiteral]) := .append _ rfl
      obtain ⟨before', reversed', hopened', hparts, hread⟩ :=
        ih [] hopened h.tail hclosed hothers (absurd rfl)
      refine ⟨before', reversed', hopened', ?_,
        (scanString_holePart start before reversed hclose hquote).trans hread⟩
      rw [hparts]
      simp [textPart]

/-- The literal of the message is read as these parts and nothing else. -/
def ReadsAs (message : String) (parts : List TemplatePart) : Prop :=
  ∃ tokens, tokenize (messageLiteral message) = .ok tokens ∧
    tokens.map (·.lexeme) = [messageLexeme parts, .eof]

theorem toList_messageLiteral (parts : List TemplatePart) :
    (messageLiteral (messageOf parts)).toList = '"' :: literalOf parts ['"'] := by
  simp [messageLiteral, messageOf, literalOf]

theorem readsAs_inLiteral {parts : List TemplatePart} (h : MessageParts parts)
    (hcloses : ∀ p ∈ parts, p.closes = true) (hquotes : ∀ p ∈ parts, p.quotes = false) :
    ReadsAs (messageOf parts) (parts.map (·.inLiteral)) := by
  obtain ⟨before, reversed, hopened, hparts, hread⟩ := scanString_parts
    ('"' :: literalOf parts ['"']) [] ['"'] (.inl rfl) h hcloses hquotes (absurd rfl) rfl
  rw [scanString_close, closeString_eq hopened, hparts] at hread
  have hspells : Spells ('"' :: literalOf parts ['"'])
      [messageLexeme (parts.map (·.inLiteral)), .eof] := spells_nil.scan rfl hread
  rw [← toList_messageLiteral] at hspells
  exact hspells _

/-- The message is read up to a hole if all holes in front of that one can be read. -/
theorem scanString_front (start : List Char) {front back : List TemplatePart} {source : String}
    (h : MessageParts (front ++ .hole source :: back))
    (hcloses : ∀ p ∈ front, p.closes = true) (hquotes : ∀ p ∈ front, p.quotes = false)
    (rest : List Char) : ∃ before reversed, before ++ textPart reversed = front.map (·.inLiteral) ∧
      scanString start [] [] (literalOf (front ++ .hole source :: back) rest) =
        scanString start before reversed ('$' :: '\x7b' ::
          (source.toList.flatMap escape ++ '\x7d' :: literalOf back rest)) := by
  have hfront : MessageParts front :=
    ⟨fun p hp => h.valid p (List.mem_append_left _ hp), h.apart.left_of_append⟩
  obtain ⟨before, reversed, -, hparts, hread⟩ :=
    scanString_parts start [] (literalOf (.hole source :: back) rest) (.inl rfl) hfront hcloses
      hquotes (absurd rfl) (by rw [literalOf_hole]; rfl)
  rw [← literalOf_append, literalOf_hole] at hread
  exact ⟨before, reversed, hparts, hread⟩

/-- The literal is read as the string that it is, and the rest is what stands behind that. -/
theorem tokenize_messageLiteral (parts : List TemplatePart) : ∃ size,
    tokenize (messageLiteral (messageOf parts)) =
      match scanString ('"' :: literalOf parts ['"']) [] [] (literalOf parts ['"']) with
      | .error fault => .error (.lexical fault.cause (size - byteLength fault.rest))
      | .ok (l, rest) => (tokensFrom size rest).map
          (⟨l, size - byteLength ('"' :: literalOf parts ['"'])⟩ :: ·) := by
  refine ⟨(messageLiteral (messageOf parts)).utf8ByteSize, ?_⟩
  rw [tokenize, tokensFrom_eq, toList_messageLiteral, List.dropWhile_cons_of_neg (by decide)]
  rfl

/-- A quotation mark in a hole makes the whole message unreadable. -/
theorem tokenize_quotes {parts : List TemplatePart} (h : MessageParts parts)
    (hcloses : ∀ p ∈ parts, p.closes = true) (hquotes : ∃ p ∈ parts, p.quotes = true) :
    ∃ offset, tokenize (messageLiteral (messageOf parts)) =
      .error (.lexical .unterminatedTemplate offset) := by
  obtain ⟨first, hfirst⟩ := Option.isSome_iff_exists.mp (List.find?_isSome.mpr hquotes)
  obtain ⟨hquote, front, back, rfl, hfront⟩ := List.find?_eq_some_iff_append.mp hfirst
  cases first with
  | text | name => contradiction
  | hole source =>
    have hbehind : ('\x7d' :: back.flatMap (·.written)).flatMap escape ++ ['"'] =
        '\x7d' :: literalOf back ['"'] := rfl
    have hnone := takeHole_quote (hcloses (.hole source) (by simp))
      (by simpa [TemplatePart.quotes] using hquote) ('\x7d' :: back.flatMap (·.written))
    rw [hbehind] at hnone
    obtain ⟨before, reversed, -, hread⟩ := scanString_front
      ('"' :: literalOf (front ++ .hole source :: back) ['"']) h
      (fun p hp => hcloses p (List.mem_append_left _ hp)) (fun p hp => by simpa using hfront p hp)
      ['"']
    obtain ⟨size, htokens⟩ := tokenize_messageLiteral (front ++ .hole source :: back)
    rw [hread, scanString_openHole _ _ _ hnone] at htokens
    exact ⟨_, htokens⟩

/-- A part that can be read stands in the literal as it is. -/
theorem TemplatePart.of_readable {p : TemplatePart} (h : p.readable = true) :
    p.closes = true ∧ p.quotes = false ∧ p.inLiteral = p := by
  cases p with
  | text | name => exact ⟨rfl, rfl, rfl⟩
  | hole source =>
    simp only [readable, Bool.and_eq_true, List.all_eq_true, decide_eq_true_eq] at h
    obtain ⟨hcloses, hplain⟩ := h
    refine ⟨hcloses, ?_, ?_⟩
    · have hno : '"' ∉ source.toList := fun hm => absurd (hplain '"' hm) (by decide)
      simpa [quotes] using hno
    · rw [inLiteral, flatMap_escape hplain, String.ofList_toList]

theorem map_inLiteral {parts : List TemplatePart} (h : ∀ p ∈ parts, p.readable = true) :
    parts.map (·.inLiteral) = parts :=
  (List.map_congr_left fun p hp => (TemplatePart.of_readable (h p hp)).2.2).trans (List.map_id _)

/-- A hole that is found in the literal as it was written can be read. -/
theorem TemplatePart.readable_of_takeHole {source : String} {rest after : List Char}
    (h : takeHole (.code 0) (source.toList.flatMap escape ++ '\x7d' :: rest) =
      some (source.toList, after)) : (TemplatePart.hole source).readable = true := by
  have hplain := escape_of_prefix (takeHole_eq h)
  rw [flatMap_escape hplain] at h
  simpa [readable, enclosed_of_takeHole h] using hplain

theorem scanString_of_readsAs {parts parts' : List TemplatePart}
    (h : ReadsAs (messageOf parts) parts') : ∃ rest,
      scanString ('"' :: literalOf parts ['"']) [] [] (literalOf parts ['"']) =
        .ok (messageLexeme parts', rest) := by
  obtain ⟨tokens, htokens, hlexemes⟩ := h
  obtain ⟨size, hsize⟩ := tokenize_messageLiteral parts
  rw [hsize] at htokens
  split at htokens
  · contradiction
  · rename_i l rest hscan
    cases hrest : tokensFrom size rest with
    | error fault =>
      rw [hrest] at htokens
      contradiction
    | ok others =>
      rw [hrest] at htokens
      cases htokens
      have hl : l = messageLexeme parts' := List.head_eq_of_cons_eq hlexemes
      exact ⟨rest, by rw [hscan, hl]⟩

/-- Of a message that is read as its parts all holes can be read: the first that cannot would be
read as another one. -/
theorem readable_of_readsAs {parts : List TemplatePart} (h : MessageParts parts)
    (hreads : ReadsAs (messageOf parts) parts) : ∀ p ∈ parts, p.readable = true := by
  by_contra hno
  obtain ⟨first, hfirst⟩ : ∃ first, parts.find? (fun p => !p.readable) = some first := by
    rw [← Option.isSome_iff_exists, List.find?_isSome]
    simpa using hno
  obtain ⟨hbad, front, back, rfl, hfront⟩ := List.find?_eq_some_iff_append.mp hfirst
  cases first with
  | text | name => contradiction
  | hole source =>
    have hreadable (p : TemplatePart) (hp : p ∈ front) : p.readable = true := by
      simpa using hfront p hp
    obtain ⟨before, reversed, hparts, hread⟩ := scanString_front
      ('"' :: literalOf (front ++ .hole source :: back) ['"']) h
      (fun p hp => (TemplatePart.of_readable (hreadable p hp)).1)
      (fun p hp => (TemplatePart.of_readable (hreadable p hp)).2.1) ['"']
    rw [map_inLiteral hreadable] at hparts
    obtain ⟨rest, hscan⟩ := scanString_of_readsAs hreads
    rw [hread] at hscan
    cases htake : takeHole (.code 0)
        (source.toList.flatMap escape ++ '\x7d' :: literalOf back ['"']) with
    | none =>
      rw [scanString_openHole _ _ _ htake] at hscan
      contradiction
    | some taken =>
      obtain ⟨source', after⟩ := taken
      have hmixed : messageLexeme (front ++ .hole source :: back) =
          .template (front ++ .hole source :: back) := by
        simp [messageLexeme, TemplatePart.isText]
      rw [scanString_hole _ _ _ htake, hparts, hmixed] at hscan
      obtain ⟨more, hsame⟩ := scanString_template hscan (by simp)
      have hsame := Lexeme.template.inj hsame
      rw [List.append_assoc, List.append_cancel_left_eq] at hsame
      have hsource := TemplatePart.hole.inj (List.head_eq_of_cons_eq hsame)
      have hchars : source' = source.toList := by rw [hsource, String.toList_ofList]
      rw [hchars] at htake
      rw [TemplatePart.readable_of_takeHole htake] at hbad
      contradiction

/-- A message is read as the parts that it was made of if and only if each hole closes its braces
and nothing in it is escaped in a literal. Otherwise, where holes close, a hole has the escapes in
its source, and if one has a quotation mark, then nothing can be read at all. -/
theorem messageLiteral_reads {parts : List TemplatePart} (h : MessageParts parts) :
    (ReadsAs (messageOf parts) parts ↔ ∀ p ∈ parts, p.readable = true) ∧
    ((∀ p ∈ parts, p.closes = true) →
      ((∀ p ∈ parts, p.quotes = false) →
        ReadsAs (messageOf parts) (parts.map (·.inLiteral))) ∧
      ((∃ p ∈ parts, p.quotes = true) → ∃ offset,
        tokenize (messageLiteral (messageOf parts)) =
          .error (.lexical .unterminatedTemplate offset))) := by
  refine ⟨⟨readable_of_readsAs h, fun hreadable => ?_⟩, fun hcloses =>
    ⟨readsAs_inLiteral h hcloses, tokenize_quotes h hcloses⟩⟩
  have hreads := readsAs_inLiteral h
    (fun p hp => (TemplatePart.of_readable (hreadable p hp)).1)
    (fun p hp => (TemplatePart.of_readable (hreadable p hp)).2.1)
  rwa [map_inLiteral hreadable] at hreads

/-- Quotation marks, backslashes and line breaks may stand outside of holes. -/
theorem messageLiteral_reads_parts :
    let parts : List TemplatePart :=
      [.text "say \"hi\"\n", .name "x", .text "\\", .hole "run \x7b it + 1 \x7d"]
    MessageParts parts ∧ messageOf parts = "say \"hi\"\n$x\\$\x7brun \x7b it + 1 \x7d\x7d" ∧
      ReadsAs (messageOf parts) parts := by
  intro parts
  have h : MessageParts parts := ⟨by decide +kernel, by decide +kernel⟩
  have hreadable : ∀ p ∈ parts, p.readable = true := by decide +kernel
  exact ⟨h, by decide +kernel, (messageLiteral_reads h).1.mpr hreadable⟩

/-- A string in a hole can be read on its own, but not in the message. -/
theorem messageLiteral_unread :
    (parse "\"a\"").isOk = true ∧ messageOf [.hole "\"a\""] = "$\x7b\"a\"\x7d" ∧
      ¬ ReadsAs (messageOf [.hole "\"a\""]) [.hole "\"a\""] := by
  refine ⟨by decide +kernel, by decide +kernel, fun hreads => ?_⟩
  obtain ⟨tokens, htokens, -⟩ := hreads
  have hfails : (tokenize (messageLiteral (messageOf [.hole "\"a\""]))).isOk = false := by
    decide +kernel
  rw [htokens] at hfails
  contradiction

end Debugger.Syntax
