import Debugger.Text.Blank
import Debugger.Syntax.Quoted

/-!
Splitting a text into tokens: words, symbols, and the literals of the other scanners, with blanks
between them.
-/

namespace Debugger.Syntax

open Text

/-- Operators and punctuation, a longer spelling before its own beginnings. -/
def spellings : List (List Char × Lexeme) :=
  [(['!', '=', '='], .symbol .bangEq), (['=', '=', '='], .symbol .eqEq),
    (['!', '='], .symbol .bangEq), (['=', '='], .symbol .eqEq), (['<', '='], .symbol .le),
    (['>', '='], .symbol .ge), (['&', '&'], .symbol .ampAmp), (['|', '|'], .symbol .pipePipe),
    (['?', ':'], .symbol .elvis), (['?', '.'], .symbol .safeDot), (['.', '.'], .symbol .dotDot),
    (['-', '>'], .symbol .arrow), (['+', '='], .assign .add), (['-', '='], .assign .sub),
    (['*', '='], .assign .mul), (['/', '='], .assign .div), (['%', '='], .assign .rem),
    (['&', '='], .assign .and), (['|', '='], .assign .or), (['='], .assign .set),
    (['+'], .symbol .plus), (['-'], .symbol .minus), (['*'], .symbol .star),
    (['/'], .symbol .slash), (['%'], .symbol .percent), (['!'], .symbol .bang),
    (['~'], .symbol .tilde), (['&'], .symbol .amp), (['|'], .symbol .pipe), (['^'], .symbol .caret),
    (['<'], .symbol .lt), (['>'], .symbol .gt), (['.'], .symbol .dot), (['?'], .symbol .question),
    ([':'], .symbol .colon), (['('], .symbol .lparen), ([')'], .symbol .rparen),
    (['['], .symbol .lbracket), ([']'], .symbol .rbracket), (['\x7b'], .symbol .lbrace),
    (['\x7d'], .symbol .rbrace), ([','], .symbol .comma)]

/-- The text behind a given beginning. -/
def behind : List Char → List Char → Option (List Char)
  | [], cs => some cs
  | p :: ps, c :: cs => if p = c then behind ps cs else none
  | _ :: _, [] => none

/-- `!is` and `!in`, when no longer word starts there. -/
def scanNegated (cs : List Char) : Option (Lexeme × List Char) :=
  [(['!', 'i', 's'], Lexeme.keyword .notIsType), (['!', 'i', 'n'], .keyword .notInside)].findSome?
    fun (word, lexeme) => match behind word cs with
      | some rest => if rest.head?.any isIdentifierContinue then none else some (lexeme, rest)
      | none => none

def scanSymbol (cs : List Char) : Option (Lexeme × List Char) :=
  spellings.findSome? fun (spelling, lexeme) => (behind spelling cs).map fun rest => (lexeme, rest)

/-- The lexeme that begins with the first character. -/
def scanLexeme : List Char → Scanned Lexeme
  | [] => .ok (.eof, [])
  | c :: rest =>
    if c = '"' then scanString (c :: rest) [] [] rest
    else if c = '\'' then scanChar (c :: rest) rest
    else if c.isDigit then scanNumber (c :: rest)
    else if isIdentifierStart c then
      .ok (.ofWord (String.ofList (c :: rest.takeWhile isIdentifierContinue)),
        rest.dropWhile isIdentifierContinue)
    else match scanNegated (c :: rest) <|> scanSymbol (c :: rest) with
      | some scanned => .ok scanned
      | none => .error ⟨.unexpected c, c :: rest⟩

theorem length_behind {spelling cs rest : List Char} (h : behind spelling cs = some rest) :
    cs.length = spelling.length + rest.length := by
  fun_induction behind spelling cs with
  | case1 => simp_all
  | case2 _ _ _ ih => simp [ih h]; omega
  | case3 => cases h
  | case4 => cases h

theorem length_scanNegated {cs rest : List Char} {l : Lexeme}
    (h : scanNegated cs = some (l, rest)) : rest.length < cs.length := by
  obtain ⟨⟨word, lexeme⟩, hm, h⟩ := List.exists_of_findSome?_eq_some h
  have hne : 0 < word.length := by
    simp at hm
    rcases hm with ⟨rfl, -⟩ | ⟨rfl, -⟩ <;> simp
  simp only at h
  split at h
  · rename_i heq
    split at h
    · cases h
    · cases h
      have := length_behind heq
      omega
  · cases h

theorem length_scanSymbol {cs rest : List Char} {l : Lexeme}
    (h : scanSymbol cs = some (l, rest)) : rest.length < cs.length := by
  obtain ⟨⟨spelling, lexeme⟩, hm, h⟩ := List.exists_of_findSome?_eq_some h
  have hne : 0 < spelling.length := by
    have : ∀ e ∈ spellings, 0 < e.1.length := by simp [spellings]
    exact this _ hm
  obtain ⟨r, hr, he⟩ := Option.map_eq_some_iff.mp h
  cases he
  have := length_behind hr
  omega

/-- A lexeme takes at least one character, unless none is left. -/
theorem length_scanLexeme {c : Char} {cs rest : List Char} {l : Lexeme}
    (h : scanLexeme (c :: cs) = .ok (l, rest)) : rest.length < (c :: cs).length := by
  simp only [scanLexeme] at h
  split at h
  · have := length_scanString h
    simp; omega
  split at h
  · have := length_scanChar h
    simp; omega
  split at h
  · rename_i hd
    exact length_scanNumber (by simpa using hd) h
  split at h
  · cases h
    have := (cs.dropWhile_sublist isIdentifierContinue).length_le
    simp; omega
  split at h
  · rename_i heq
    cases h
    cases hn : scanNegated (c :: cs) with
    | some s =>
      rw [hn] at heq
      cases heq
      exact length_scanNegated hn
    | none =>
      rw [hn] at heq
      exact length_scanSymbol heq
  · cases h

/-- The tokens of what is left of a text of `size` bytes. -/
def tokensFrom (size : Nat) (cs : List Char) : Except SyntaxError (List Token) :=
  match _hb : cs.dropWhile isBlank with
  | [] => .ok [⟨.eof, size⟩]
  | c :: more =>
    match _h : scanLexeme (c :: more) with
    | .error fault => .error (.lexical fault.cause (size - byteLength fault.rest))
    | .ok (lexeme, rest) =>
      match tokensFrom size rest with
      | .error e => .error e
      | .ok tokens => .ok (⟨lexeme, size - byteLength (c :: more)⟩ :: tokens)
termination_by cs.length
decreasing_by
  have h₁ := length_scanLexeme _h
  have h₂ := (cs.dropWhile_sublist isBlank).length_le
  rw [_hb] at h₂
  omega

/-- The tokens of a text; the last one is `eof`. -/
def tokenize (text : String) : Except SyntaxError (List Token) :=
  tokensFrom text.utf8ByteSize text.toList

end Debugger.Syntax
