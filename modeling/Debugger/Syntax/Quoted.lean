import Debugger.Text.Identifier
import Debugger.Syntax.Numeral

/-!
String and character literals: escapes, names and holes in strings.
-/

namespace Debugger.Syntax

open Text

/-- The character that `\c` stands for. -/
def simpleEscape (c : Char) : Option Char :=
  [('n', '\n'), ('t', '\t'), ('r', '\r'), ('b', '\x08'), ('0', '\x00'), ('\\', '\\'), ('"', '"'),
    ('\'', '\''), ('$', '$')].lookup c

/-- The character with the code of four hexadecimal digits; a plus may take the first place. -/
def codeEscape (ds : List Char) : Option Char :=
  let digits := if ds.head? = some '+' then ds.tail else ds
  let code := ofDigits 16 digits
  if digits.all (isDigitOf 16) && (code < 0xD800 || 0xDFFF < code) then some (Char.ofNat code)
  else none

/-- The escape behind a backslash in the literal that begins at `start`. -/
def scanEscape (start : List Char) : List Char → Scanned Char
  | [] => .error ⟨.unterminatedString, start⟩
  | c :: rest =>
    if c = 'u' then
      match rest with
      | d₁ :: d₂ :: d₃ :: d₄ :: after =>
        match codeEscape [d₁, d₂, d₃, d₄] with
        | some value => .ok (value, after)
        | none => .error ⟨.invalidUnicodeEscape, c :: rest⟩
      | _ => .error ⟨.invalidUnicodeEscape, c :: rest⟩
    else match simpleEscape c with
      | some value => .ok (value, rest)
      | none => .error ⟨.invalidEscape c, c :: rest⟩

theorem length_scanEscape {start cs rest : List Char} {c : Char}
    (h : scanEscape start cs = .ok (c, rest)) : rest.length < cs.length := by
  unfold scanEscape at h
  repeat' split at h
  all_goals simp_all
  all_goals omega

/-- Where the reading of a hole stands: among its code, inside a nested string, or behind a
backslash in one. The number counts the braces open inside the hole. -/
inductive HoleState where
  | code (depth : Nat)
  | quoted (depth : Nat)
  | escaped (depth : Nat)

/-- The source of a hole up to its closing brace, and the text behind that. Braces inside nested
strings do not count. -/
def takeHole : HoleState → List Char → Option (List Char × List Char)
  | _, [] => none
  | .escaped d, c :: rest => (takeHole (.quoted d) rest).map fun (s, r) => (c :: s, r)
  | .quoted d, c :: rest =>
    (takeHole (if c = '\\' then .escaped d else if c = '"' then .code d else .quoted d) rest).map
      fun (s, r) => (c :: s, r)
  | .code d, c :: rest =>
    if c = '\x7d' && d = 0 then some ([], rest)
    else
      (takeHole
        (if c = '\x7d' then .code (d - 1) else if c = '\x7b' then .code (d + 1)
          else if c = '"' then .quoted d else .code d) rest).map fun (s, r) => (c :: s, r)

theorem takeHole_eq {state : HoleState} {cs source rest : List Char}
    (h : takeHole state cs = some (source, rest)) : cs = source ++ '\x7d' :: rest := by
  induction cs generalizing state source with
  | nil => cases state <;> simp [takeHole] at h
  | cons c cs ih =>
    cases state <;> simp only [takeHole] at h
    case code d =>
      split at h
      · rename_i hc
        simp only [Option.some.injEq, Prod.mk.injEq] at h
        obtain ⟨rfl, rfl⟩ := h
        simp only [Bool.and_eq_true, decide_eq_true_eq] at hc
        simp [hc.1]
      · obtain ⟨⟨s, r⟩, hs, he⟩ := Option.map_eq_some_iff.mp h
        simp only [Prod.mk.injEq] at he
        obtain ⟨rfl, rfl⟩ := he
        simp [ih hs]
    all_goals
      obtain ⟨⟨s, r⟩, hs, he⟩ := Option.map_eq_some_iff.mp h
      simp only [Prod.mk.injEq] at he
      obtain ⟨rfl, rfl⟩ := he
      simp [ih hs]

def textPart (reversed : List Char) : List TemplatePart :=
  if reversed.isEmpty then [] else [.text (String.ofList reversed.reverse)]

/-- A string without holes and names is a literal. -/
def closeString (parts : List TemplatePart) (reversed : List Char) : Lexeme :=
  if parts.isEmpty then .literal (.string (String.ofList reversed.reverse))
  else .template (parts ++ textPart reversed)

/-- The string that begins at `start`, behind its opening quote: `parts` are read, and after them
the characters of `reversed`. -/
def scanString (start : List Char) (parts : List TemplatePart) (reversed : List Char) :
    List Char → Scanned Lexeme
  | [] => .error ⟨.unterminatedString, start⟩
  | c :: rest =>
    if c = '\n' then .error ⟨.unterminatedString, start⟩
    else if c = '"' then .ok (closeString parts reversed, rest)
    else if c = '\\' then
      match _h : scanEscape start rest with
      | .error fault => .error fault
      | .ok (value, after) => scanString start parts (value :: reversed) after
    else if c = '$' then
      match rest with
      | [] => scanString start parts (c :: reversed) []
      | d :: more =>
        if d = '\x7b' then
          match _h : takeHole (.code 0) more with
          | none => .error ⟨.unterminatedTemplate, more⟩
          | some (source, after) =>
            scanString start (parts ++ textPart reversed ++ [.hole (String.ofList source)]) [] after
        else if isIdentifierStart d then
          scanString start
            (parts ++ textPart reversed ++
              [.name (String.ofList (d :: more.takeWhile isIdentifierContinue))])
            [] (more.dropWhile isIdentifierContinue)
        else scanString start parts (c :: reversed) (d :: more)
    else scanString start parts (c :: reversed) rest
termination_by cs => cs.length
decreasing_by
  all_goals simp_wf
  · have := length_scanEscape _h
    omega
  · have := congrArg List.length (takeHole_eq _h)
    simp at this
    omega
  · have := (more.dropWhile_sublist isIdentifierContinue).length_le
    omega

/-- The character literal that begins at `start`, behind its opening quote. -/
def scanChar (start : List Char) : List Char → Scanned Lexeme
  | [] => .error ⟨.unterminatedChar, start⟩
  | c :: rest =>
    if c = '\n' then .error ⟨.unterminatedChar, start⟩
    else if c = '\'' then .error ⟨.emptyChar, start⟩
    else
      let scanned := if c = '\\' then scanEscape start rest else .ok (c, rest)
      match scanned with
      | .error fault => .error fault
      | .ok (value, after) =>
        if after.head? = some '\'' then .ok (.literal (.char value), after.tail)
        else .error ⟨.unterminatedChar, start⟩

theorem length_scanString {start rest : List Char} {parts : List TemplatePart}
    {reversed cs : List Char} {l : Lexeme}
    (h : scanString start parts reversed cs = .ok (l, rest)) : rest.length < cs.length := by
  fun_induction scanString start parts reversed cs
  all_goals first
    | contradiction
    | (cases h; simp)
    | skip
  case case5 ih =>
    have := length_scanEscape ‹_›
    have := ih h
    simp; omega
  case case6 ih => simpa using ih h
  case case8 ih =>
    have := congrArg List.length (takeHole_eq ‹takeHole _ _ = some _›)
    simp at this
    have := ih h
    simp; omega
  case case9 ih =>
    have := Nat.lt_of_lt_of_le (ih h) (List.dropWhile_sublist _).length_le
    simp; omega
  case case10 ih => have := ih h; simp at this ⊢; omega
  case case11 ih => have := ih h; simp; omega

theorem length_scanChar {start cs rest : List Char} {l : Lexeme}
    (h : scanChar start cs = .ok (l, rest)) : rest.length < cs.length := by
  cases cs with
  | nil => simp [scanChar] at h
  | cons c cs =>
    simp only [scanChar] at h
    repeat' split at h
    all_goals first
      | (cases h; done)
      | skip
    rename_i after heq _
    cases h
    have htail : after.tail.length ≤ after.length := by simp
    split at heq
    · have := length_scanEscape heq
      simp only [List.length_cons]; omega
    · cases heq
      simp only [List.length_cons]; omega

end Debugger.Syntax
