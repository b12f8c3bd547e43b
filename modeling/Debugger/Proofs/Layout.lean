import Mathlib.Data.String.Basic
import Debugger.Proofs.Locality
import Debugger.Proofs.Reruns

/-!
How the tokens of a text lie in it: blanks and lexemes in turn, up to its end. Nothing of a text is
skipped or read twice, and what is read of it stays the same when more is written behind a blank.
-/

namespace Debugger.Syntax

open Text

/-! ### Bytes -/

theorem byteLength_append (cs ds : List Char) :
    byteLength (cs ++ ds) = byteLength cs + byteLength ds := by
  induction cs with
  | nil => simp [byteLength]
  | cons c cs ih => simp [byteLength, ih, Nat.add_assoc]

theorem byteLength_eq (cs : List Char) : byteLength cs = (String.ofList cs).utf8ByteSize := by
  rw [String.utf8ByteSize_ofList]
  induction cs with
  | nil => rfl
  | cons c cs ih => rw [byteLength, ih, String.utf8Len_cons, Nat.add_comm]

theorem byteLength_toList (s : String) : byteLength s.toList = s.utf8ByteSize := by
  rw [byteLength_eq, String.ofList_toList]

theorem byteLength_pos {cs : List Char} (h : cs ≠ []) : 0 < byteLength cs := by
  obtain ⟨c, cs, rfl⟩ := List.exists_cons_of_ne_nil h
  have := c.utf8Size_pos
  rw [byteLength]
  omega

/-- The part of a text between two byte offsets. -/
def slice (text : String) (first last : Nat) : String :=
  String.Pos.Raw.extract text ⟨first⟩ ⟨last⟩

theorem slice_eq {text : String} {front part behind : List Char}
    (h : text.toList = front ++ part ++ behind) :
    slice text (byteLength front) (byteLength front + byteLength part) = String.ofList part := by
  have hextract := String.extract_of_valid front part behind
  rw [← h, String.ofList_toList] at hextract
  rw [slice, byteLength_eq, byteLength_eq, String.utf8ByteSize_ofList, String.utf8ByteSize_ofList]
  exact hextract

/-- A byte offset between two characters of a text, or at one of its ends. -/
def IsBoundary (text : String) (offset : Nat) : Prop :=
  offset ≤ text.utf8ByteSize ∧ String.Pos.Raw.IsValid text ⟨offset⟩

/-- Where the end of a text begins is a boundary. -/
theorem isBoundary_of_suffix {text : String} {cs : List Char} (h : cs <:+ text.toList) :
    IsBoundary text (text.utf8ByteSize - byteLength cs) := by
  obtain ⟨front, hfront⟩ := h
  have hsize : text.utf8ByteSize = byteLength front + byteLength cs := by
    rw [← byteLength_toList, ← hfront, byteLength_append]
  refine ⟨Nat.sub_le _ _, String.Pos.Raw.isValid_iff_exists_append.mpr ?_⟩
  refine ⟨String.ofList front, String.ofList cs, ?_, ?_⟩
  · rw [← String.ofList_append, hfront, String.ofList_toList]
  · rw [hsize, Nat.add_sub_cancel, byteLength_eq]
    rfl

/-! ### Tokens in turn -/

theorem scanLexeme_ne_eof {c : Char} {cs rest : List Char} {l : Lexeme}
    (h : scanLexeme (c :: cs) = .ok (l, rest)) : l ≠ .eof := by
  rintro rfl
  exact (scanLexeme_counts h rfl).1 rfl

/-- What stands for the lexeme in front of the rest, and wherever the text pauses at once or behind
the rest. -/
structure Stands (l : Lexeme) (taken rest : List Char) : Prop where
  begins : ∃ c more, taken = c :: more ∧ isBlank c = false
  ne_eof : l ≠ .eof
  scan : ∀ rest', Paused rest rest' → scanLexeme (taken ++ rest') = .ok (l, rest')

theorem stands_of_scanLexeme {c : Char} {cs rest : List Char} {l : Lexeme}
    (hc : isBlank c = false) (h : scanLexeme (c :: cs) = .ok (l, rest)) :
    ∃ taken, c :: cs = taken ++ rest ∧ Stands l taken rest := by
  obtain ⟨taken, hne, hcs, hscan⟩ := scanLexeme_takes (List.cons_ne_nil c cs) h
  obtain ⟨d, taken, rfl⟩ := List.exists_cons_of_ne_nil hne
  obtain rfl : c = d := List.head_eq_of_cons_eq hcs
  exact ⟨c :: taken, hcs, ⟨c, taken, rfl, hc⟩, scanLexeme_ne_eof h, hscan⟩

/-- The tokens of what is left of a text of `size` bytes lie in it one behind the other, with
nothing but blanks between them. -/
inductive Laid (size : Nat) : List Char → List Token → Prop
  | finish {blanks : List Char} (hblanks : blanks.all isBlank = true) :
    Laid size blanks [⟨.eof, size⟩]
  | token {blanks taken rest : List Char} {l : Lexeme} {tokens : List Token}
      (hblanks : blanks.all isBlank = true) (hstands : Stands l taken rest)
      (hrest : Laid size rest tokens) :
    Laid size (blanks ++ (taken ++ rest)) (⟨l, size - byteLength (taken ++ rest)⟩ :: tokens)

theorem isBlank_of_dropWhile {c : Char} {cs more : List Char}
    (h : cs.dropWhile isBlank = c :: more) : isBlank c = false := by
  have hhead := head_dropWhile isBlank cs
  rw [h] at hhead
  simpa using hhead

theorem laid_of_tokensFrom {size : Nat} {cs : List Char} {tokens : List Token}
    (h : tokensFrom size cs = .ok tokens) : Laid size cs tokens := by
  fun_induction tokensFrom size cs generalizing tokens with
  | case1 cs hdrop =>
    cases h
    have hcs : cs.takeWhile isBlank = cs := by
      rw [← List.append_nil (cs.takeWhile isBlank), ← hdrop, List.takeWhile_append_dropWhile]
    exact .finish (hcs ▸ List.all_takeWhile)
  | case2 | case3 => contradiction
  | case4 cs c more hdrop l rest hscan others hothers ih =>
    cases h
    obtain ⟨taken, htaken, hstands⟩ := stands_of_scanLexeme (isBlank_of_dropWhile hdrop) hscan
    have hcs : cs = cs.takeWhile isBlank ++ (taken ++ rest) := by
      rw [← htaken, ← hdrop, List.takeWhile_append_dropWhile]
    rw [hcs, htaken]
    exact .token List.all_takeWhile hstands (ih hothers)

/-- In blanks there is nothing but the end. -/
theorem tokensFrom_blanks {blanks : List Char} (h : blanks.all isBlank = true) (size : Nat) :
    tokensFrom size blanks = .ok [⟨.eof, size⟩] := by
  have hdrop : blanks.dropWhile isBlank = [] := by
    rw [← List.append_nil blanks]
    exact (takeWhile_stopped h rfl).2
  rw [tokensFrom_eq, hdrop]

/-- The first token of a text that begins with what stands for it. -/
theorem Stands.tokensFrom_eq {l : Lexeme} {taken rest rest' blanks : List Char}
    (h : Stands l taken rest) (hblanks : blanks.all isBlank = true) (hpause : Paused rest rest')
    (size : Nat) :
    tokensFrom size (blanks ++ (taken ++ rest')) =
      (tokensFrom size rest').map (⟨l, size - byteLength (taken ++ rest')⟩ :: ·) := by
  obtain ⟨c, more, rfl, hc⟩ := h.begins
  have hdrop : (blanks ++ (c :: more ++ rest')).dropWhile isBlank = c :: (more ++ rest') :=
    (takeWhile_stopped hblanks (by simp [hc])).2
  have hscan := h.scan rest' hpause
  rw [List.cons_append] at hscan
  rw [Syntax.tokensFrom_eq, hdrop]
  simp only [hscan, List.cons_append]

namespace Laid

variable {size : Nat} {cs : List Char} {tokens : List Token}

/-- The end is the last token, and no other. -/
theorem ends (h : Laid size cs tokens) :
    ∃ front, tokens = front ++ [⟨.eof, size⟩] ∧ ∀ t ∈ front, t.lexeme ≠ .eof := by
  induction h with
  | finish => exact ⟨[], rfl, nofun⟩
  | token _ hstands _ ih =>
    obtain ⟨front, rfl, hfront⟩ := ih
    exact ⟨_ :: front, rfl, List.forall_mem_cons.mpr ⟨hstands.ne_eof, hfront⟩⟩

/-- When more is written behind a pause, the tokens in front of the end are read as before. -/
theorem extended (h : Laid size cs tokens) {front : List Token}
    (htokens : tokens = front ++ [⟨.eof, size⟩]) {more : List Char} (hmore : Pauses more) :
    tokensFrom (size + byteLength more) (cs ++ more) =
      (tokensFrom (size + byteLength more) more).map (front ++ ·) := by
  induction h generalizing front with
  | @finish blanks hblanks =>
    obtain rfl : front = [] := by simpa using htokens.symm
    have hdrop : (blanks ++ more).dropWhile isBlank = more.dropWhile isBlank :=
      List.dropWhile_append_of_pos (by simpa using hblanks)
    rw [tokensFrom_eq, hdrop, ← tokensFrom_eq]
    cases tokensFrom (size + byteLength more) more <;> rfl
  | @token blanks taken rest l tokens hblanks hstands hrest ih =>
    obtain ⟨front', rfl, -⟩ := hrest.ends
    obtain rfl : front = ⟨l, size - byteLength (taken ++ rest)⟩ :: front' :=
      List.append_cancel_right (htokens.symm.trans (List.cons_append ..).symm)
    have hoffset : size + byteLength more - byteLength (taken ++ (rest ++ more)) =
        size - byteLength (taken ++ rest) := by
      rw [← List.append_assoc, byteLength_append, Nat.add_sub_add_right]
    rw [List.append_assoc, List.append_assoc,
      hstands.tokensFrom_eq hblanks (.goesOn hmore), ih rfl, hoffset]
    cases tokensFrom (size + byteLength more) more <;> rfl

/-- The first token, and what stands in front of it. -/
theorem head (h : Laid size cs tokens) :
    ∃ t others blanks rest, tokens = t :: others ∧ cs = blanks ++ rest ∧
      blanks.all isBlank = true ∧ t.offset = size - byteLength rest := by
  cases h with
  | finish hblanks => exact ⟨_, [], cs, [], rfl, (List.append_nil cs).symm, hblanks, rfl⟩
  | token hblanks _ _ => exact ⟨_, _, _, _, rfl, rfl, hblanks, rfl⟩

/-- Every token begins where an end of the text does. -/
theorem offsets (h : Laid size cs tokens) :
    ∀ t ∈ tokens, ∃ rest, rest <:+ cs ∧ t.offset = size - byteLength rest := by
  induction h with
  | finish => exact List.forall_mem_singleton.mpr ⟨[], List.nil_suffix, rfl⟩
  | @token blanks taken rest l tokens _ _ _ ih =>
    refine List.forall_mem_cons.mpr ⟨⟨taken ++ rest, List.suffix_append _ _, rfl⟩, fun t ht => ?_⟩
    obtain ⟨more, hmore, hoffset⟩ := ih t ht
    rw [← List.append_assoc]
    exact ⟨more, hmore.trans (List.suffix_append _ _), hoffset⟩

/-- What lies between two tokens that follow each other is read as the first of them. -/
theorem parts (text : String) {front : List Char} (h : Laid text.utf8ByteSize cs tokens)
    (htext : text.toList = front ++ cs) :
    tokens.IsChain fun t u => t.offset < u.offset ∧
      tokenize (slice text t.offset u.offset) = .ok [⟨t.lexeme, 0⟩, ⟨.eof, u.offset - t.offset⟩] := by
  induction h generalizing front with
  | finish => exact .singleton _
  | @token blanks taken rest l tokens hblanks hstands hrest ih =>
    obtain ⟨u, others, gap, rest', rfl, rfl, hgap, hoffset⟩ := hrest.head
    have hfront : text.toList = front ++ blanks ++ (taken ++ gap) ++ rest' := by
      simp [htext]
    have hmore : text.toList = front ++ blanks ++ taken ++ (gap ++ rest') := by
      simp [htext]
    have hsize : text.utf8ByteSize =
        byteLength (front ++ blanks) + byteLength (taken ++ gap) + byteLength rest' := by
      rw [← byteLength_toList, hfront, byteLength_append, byteLength_append]
    have hpos : 0 < byteLength (taken ++ gap) := by
      obtain ⟨c, more, rfl, -⟩ := hstands.begins
      exact byteLength_pos (by simp)
    have hfirst : text.utf8ByteSize - byteLength (taken ++ (gap ++ rest')) =
        byteLength (front ++ blanks) := by
      rw [← List.append_assoc, byteLength_append, hsize]
      omega
    have hnext : u.offset = byteLength (front ++ blanks) + byteLength (taken ++ gap) := by
      rw [hoffset, hsize, Nat.add_sub_cancel]
    refine .cons_cons ?_ (ih hmore)
    rw [hfirst, hnext, slice_eq hfront]
    refine ⟨Nat.lt_add_of_pos_right hpos, ?_⟩
    have hread := hstands.tokensFrom_eq List.all_nil (.ends (pauses_of_all hgap))
      (byteLength (taken ++ gap))
    rw [List.nil_append] at hread
    rw [tokenize, String.toList_ofList, ← byteLength_eq, Nat.add_sub_cancel_left, hread,
      Nat.sub_self, tokensFrom_blanks hgap]
    rfl

end Laid

/-! ### Where a fault stands -/

section Faults

variable {start cs : List Char} {fault : LexFault}

theorem scanEscape_fault (hcs : cs <:+ start) (h : scanEscape start cs = .error fault) :
    fault.rest <:+ start := by
  unfold scanEscape at h
  split at h
  · cases h
    exact List.suffix_rfl
  · split at h
    · split at h
      · split at h
        · contradiction
        · cases h
          exact hcs
      · cases h
        exact hcs
    · split at h
      · contradiction
      · cases h
        exact hcs

theorem scanString_fault {parts : List TemplatePart} {reversed : List Char} (hcs : cs <:+ start)
    (h : scanString start parts reversed cs = .error fault) : fault.rest <:+ start := by
  have hbehind {c : Char} {more : List Char} (hmore : c :: more <:+ start) : more <:+ start :=
    (List.suffix_cons c more).trans hmore
  fun_induction scanString start parts reversed cs
  all_goals try contradiction
  case case1 | case2 =>
    cases h
    exact List.suffix_rfl
  case case4 hescape _ _ =>
    cases h
    exact scanEscape_fault (hbehind hcs) hescape
  case case5 rest value after hescape _ _ ih =>
    obtain ⟨taken, -, rfl, -⟩ := scanEscape_closed hescape
    exact ih ((List.suffix_append taken after).trans (hbehind hcs)) h
  case case6 ih | case10 ih | case11 ih => exact ih (hbehind hcs) h
  case case7 =>
    cases h
    exact hbehind (hbehind hcs)
  case case8 rest source after htake _ _ _ ih =>
    have hrest : source ++ '\x7d' :: after <:+ start := takeHole_eq htake ▸ hbehind (hbehind hcs)
    exact ih (hbehind ((List.suffix_append source _).trans hrest)) h
  case case9 ih => exact ih ((List.dropWhile_suffix _).trans (hbehind (hbehind hcs))) h

theorem scanChar_fault (hcs : cs <:+ start) (h : scanChar start cs = .error fault) :
    fault.rest <:+ start := by
  cases cs with
  | nil =>
    cases h
    exact List.suffix_rfl
  | cons c cs =>
    have hrest : cs <:+ start := (List.suffix_cons c cs).trans hcs
    simp only [scanChar] at h
    split at h
    · cases h
      exact List.suffix_rfl
    · split at h
      · cases h
        exact List.suffix_rfl
      · split at h
        · rename_i hfault
          cases h
          split at hfault
          · exact scanEscape_fault hrest hfault
          · contradiction
        · split at h
          · contradiction
          · cases h
            exact List.suffix_rfl

/-- A numeral is at fault as a whole. -/
theorem scanNumber_fault (h : scanNumber start = .error fault) : fault.rest = start := by
  have hsuffix {n : Numeral} {cs : List Char} (hfault : scanSuffix start n cs = some (.error fault)) :
      fault.rest = start := by
    unfold scanSuffix at hfault
    repeat' split at hfault
    all_goals cases hfault
    rfl
  have hfinish {n : Numeral} {cs : List Char} (hfault : finishNumber start n cs = .error fault) :
      fault.rest = start := by
    unfold finishNumber at hfault
    repeat' split at hfault
    all_goals cases hfault
    rfl
  unfold scanNumber at h
  split at h
  · simp only [scanRadix] at h
    split at h
    · cases h
      rfl
    · split at h
      · cases h
        rfl
      · contradiction
  · simp only [scanDecimal] at h
    split at h
    · rename_i hsome
      exact hsuffix (hsome.trans (congrArg some h))
    · split at h
      · exact hfinish h
      · rename_i n rest _
        cases hsome : scanSuffix start n rest with
        | none =>
          rw [hsome] at h
          exact hfinish h
        | some result =>
          rw [hsome] at h
          exact hsuffix (hsome.trans (congrArg some h))

theorem scanLexeme_fault (h : scanLexeme cs = .error fault) : fault.rest <:+ cs := by
  cases cs with
  | nil => contradiction
  | cons c cs =>
    have hcs : cs <:+ c :: cs := List.suffix_cons c cs
    simp only [scanLexeme] at h
    split at h
    · exact scanString_fault hcs h
    · split at h
      · exact scanChar_fault hcs h
      · split at h
        · have hrest : fault.rest = c :: cs := scanNumber_fault h
          exact hrest ▸ List.suffix_rfl
        · split at h
          · contradiction
          · split at h
            · contradiction
            · cases h
              exact List.suffix_rfl

/-- A text without tokens has its fault where an end of it begins. -/
theorem tokensFrom_fault {size : Nat} {e : SyntaxError} (h : tokensFrom size cs = .error e) :
    ∃ rest, rest <:+ cs ∧ e.offset = size - byteLength rest := by
  fun_induction tokensFrom size cs with
  | case1 => contradiction
  | case2 cs c more hdrop fault hscan =>
    cases h
    have hmore : c :: more <:+ cs := hdrop ▸ List.dropWhile_suffix isBlank
    exact ⟨fault.rest, (scanLexeme_fault hscan).trans hmore, rfl⟩
  | case3 cs c more hdrop l rest hscan e' hrest ih =>
    cases h
    obtain ⟨behind, hbehind, hoffset⟩ := ih hrest
    have hmore : c :: more <:+ cs := hdrop ▸ List.dropWhile_suffix isBlank
    obtain ⟨taken, -, htaken, -⟩ := scanLexeme_takes (List.cons_ne_nil c more) hscan
    exact ⟨behind, hbehind.trans ((htaken ▸ List.suffix_append taken rest).trans hmore), hoffset⟩
  | case4 => contradiction

end Faults

/-! ### Whole texts -/

theorem Laid.ended {size : Nat} {cs : List Char} {tokens : List Token} (h : Laid size cs tokens) :
    ∃ front, tokens = front ++ [⟨.eof, size⟩] ∧ Ended front ⟨.eof, size⟩ := by
  obtain ⟨front, hfront, hne⟩ := h.ends
  exact ⟨front, hfront, rfl, hne⟩

theorem laid_of_tokenize {text : String} {tokens : List Token} (h : tokenize text = .ok tokens) :
    Laid text.utf8ByteSize text.toList tokens :=
  laid_of_tokensFrom h

/-- The tokens divide the text: each of them is read on its own from its part, which goes up to where
the next one begins. -/
structure Divides (tokens : List Token) (text : String) : Prop where
  boundary : ∀ t ∈ tokens, IsBoundary text t.offset
  indented : ∀ t ∈ tokens.head?, (slice text 0 t.offset).toList.all isBlank = true
  parts : tokens.IsChain fun t u => t.offset < u.offset ∧
    tokenize (slice text t.offset u.offset) = .ok [⟨t.lexeme, 0⟩, ⟨.eof, u.offset - t.offset⟩]
  ended : ∃ front, tokens = front ++ [⟨.eof, text.utf8ByteSize⟩] ∧ ∀ t ∈ front, t.lexeme ≠ .eof

theorem Laid.boundary {text : String} {tokens : List Token}
    (h : Laid text.utf8ByteSize text.toList tokens) : ∀ t ∈ tokens, IsBoundary text t.offset := by
  intro t ht
  obtain ⟨rest, hrest, hoffset⟩ := h.offsets t ht
  rw [hoffset]
  exact isBoundary_of_suffix hrest

theorem Laid.indented {text : String} {tokens : List Token}
    (h : Laid text.utf8ByteSize text.toList tokens) :
    ∀ t ∈ tokens.head?, (slice text 0 t.offset).toList.all isBlank = true := by
  obtain ⟨t, others, blanks, rest, rfl, htext, hblanks, hoffset⟩ := h.head
  intro u hu
  obtain rfl : t = u := by simpa using hu
  have hsize : text.utf8ByteSize = byteLength blanks + byteLength rest := by
    rw [← byteLength_toList, htext, byteLength_append]
  have hslice : slice text 0 (0 + byteLength blanks) = String.ofList blanks :=
    slice_eq (h := show text.toList = [] ++ blanks ++ rest from htext)
  rw [Nat.zero_add] at hslice
  rw [hoffset, hsize, Nat.add_sub_cancel, hslice, String.toList_ofList]
  exact hblanks

/-- Every text has tokens that divide it, or a fault at one of its boundaries; and where it is no
expression, it fails at a boundary as well. -/
theorem lexing_local (text : String) :
    (match tokenize text with
      | .ok tokens => Divides tokens text
      | .error cause => IsBoundary text cause.offset) ∧
    match parse text with
      | .ok _ => True
      | .error cause => IsBoundary text cause.offset := by
  have hfault {cause : SyntaxError} (h : tokenize text = .error cause) :
      IsBoundary text cause.offset := by
    obtain ⟨rest, hrest, hoffset⟩ := tokensFrom_fault h
    rw [hoffset]
    exact isBoundary_of_suffix hrest
  cases htokens : tokenize text with
  | error cause =>
    refine ⟨hfault htokens, ?_⟩
    rw [parse, htokens]
    exact hfault htokens
  | ok tokens =>
    have hlaid := laid_of_tokenize htokens
    refine ⟨⟨hlaid.boundary, hlaid.indented, hlaid.parts text (List.nil_append _).symm,
      hlaid.ends⟩, ?_⟩
    have hparse : parse text = parseTokens tokens := by
      rw [parse, htokens]
      rfl
    rw [hparse]
    cases hresult : parseTokens tokens with
    | ok e => trivial
    | error cause =>
      obtain ⟨front, rfl, hended⟩ := hlaid.ended
      obtain ⟨t, ht, hoffset⟩ := hended.fails hresult
      change IsBoundary text cause.offset
      rw [hoffset]
      exact hlaid.boundary t ht

/-! ### Assignments -/

theorem legible_assign (op : Assignment) : (Lexeme.assign op).Legible := by
  cases op <;> exact ⟨_, _, rfl, rfl, fun rest h => by cases h <;> rfl⟩

/-- A spaced assignment operator is the first token behind the space. -/
theorem tokensFrom_assign (size : Nat) (op : Assignment) (right : List Char) :
    tokensFrom size (' ' :: (op.text.toList ++ ' ' :: right)) =
      (tokensFrom size (' ' :: right)).map
        (⟨.assign op, size - byteLength (op.text.toList ++ ' ' :: right)⟩ :: ·) := by
  obtain ⟨c, cs, hcs, hc, hscan⟩ := legible_assign op
  have htext : op.text.toList = c :: cs := hcs
  have hspace : isBlank ' ' = true := by decide
  rw [tokensFrom_blank size hspace, htext, List.cons_append, tokensFrom_eq,
    List.dropWhile_cons_of_neg (Bool.eq_false_iff.mp hc)]
  simp only [hscan (' ' :: right) (.space right)]

/-- The tokens in front of the operator are those of the left side. -/
theorem tokenize_assign {left right : String} {op : Assignment} {front tokens : List Token}
    (hleft : tokenize left = .ok (front ++ [⟨.eof, left.utf8ByteSize⟩]))
    (h : tokenize (left ++ " " ++ op.text ++ " " ++ right) = .ok tokens) :
    ∃ others, tokens = front ++ ⟨.assign op, left.utf8ByteSize + 1⟩ :: others := by
  generalize hmore : ' ' :: (op.text.toList ++ ' ' :: right.toList) = more
  have htext : (left ++ " " ++ op.text ++ " " ++ right).toList = left.toList ++ more := by
    simp [← hmore]
  have hsize : (left ++ " " ++ op.text ++ " " ++ right).utf8ByteSize =
      left.utf8ByteSize + byteLength more := by
    rw [← byteLength_toList, htext, byteLength_append, byteLength_toList]
  have hpause : Pauses more := hmore ▸ .cons (by decide) _
  have hoffset : left.utf8ByteSize + byteLength more -
      byteLength (op.text.toList ++ ' ' :: right.toList) = left.utf8ByteSize + 1 := by
    rw [← hmore, byteLength, show ' '.utf8Size = 1 from rfl]
    omega
  have hassign := tokensFrom_assign (left.utf8ByteSize + byteLength more) op right.toList
  rw [hmore, hoffset] at hassign
  rw [tokenize, htext, hsize, (laid_of_tokenize hleft).extended rfl hpause, hassign] at h
  cases hothers : tokensFrom (left.utf8ByteSize + byteLength more) (' ' :: right.toList) with
  | error cause =>
    rw [hothers] at h
    contradiction
  | ok others =>
    rw [hothers] at h
    cases h
    exact ⟨others, rfl⟩

/-- An assignment to an expression is refused as one, at its operator. -/
theorem assignment_refused {left right : String} (op : Assignment) {e : Expr} {tokens : List Token}
    (h : parse left = .ok e)
    (htokens : tokenize (left ++ " " ++ op.text ++ " " ++ right) = .ok tokens) :
    ∃ cause, parse (left ++ " " ++ op.text ++ " " ++ right) = .error cause ∧
      cause = .assignment (left.utf8ByteSize + 1) ∧
      cause.message = "assignment is not supported" ∧ cause.offset = left.utf8ByteSize + 1 := by
  refine ⟨.assignment (left.utf8ByteSize + 1), ?_, rfl, rfl, rfl⟩
  cases hleft : tokenize left with
  | error cause =>
    rw [parse, hleft] at h
    contradiction
  | ok front =>
    rw [parse, hleft] at h
    obtain ⟨front, rfl, hended⟩ := (laid_of_tokenize hleft).ended
    obtain ⟨others, rfl⟩ := tokenize_assign hleft htokens
    rw [parse, htokens]
    exact hended.assignment h rfl others

theorem eq_ok_of_isOk {ε α : Type} {result : Except ε α} (h : result.isOk = true) :
    ∃ a, result = .ok a := by
  cases result with
  | ok a => exact ⟨a, rfl⟩
  | error cause => contradiction

/-- A type check in front of the operator, where the operator could be taken for part of a type. -/
theorem assignment_refused_check :
    ∃ cause, parse ("é is Map<K, V>" ++ " " ++ "=" ++ " " ++ "1") = .error cause ∧
      cause = .assignment 16 ∧ cause.message = "assignment is not supported" ∧
      cause.offset = 16 := by
  have hleft : (parse "é is Map<K, V>").isOk = true := by decide +kernel
  have htokens : (tokenize ("é is Map<K, V>" ++ " " ++ Assignment.set.text ++ " " ++ "1")).isOk =
      true := by decide +kernel
  obtain ⟨e, he⟩ := eq_ok_of_isOk hleft
  obtain ⟨tokens, hread⟩ := eq_ok_of_isOk htokens
  exact assignment_refused .set he hread

end Debugger.Syntax
