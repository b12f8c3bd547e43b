import Debugger.Proofs.Layout

/-!
The question mark behind a type check. It marks the type as nullable, whatever follows, so a check
without parentheses is no condition: of the question mark and the colon behind it only the colon is
left for the branches.
-/

open Debugger.Syntax.Parser

namespace Debugger.Syntax

open Text

/-! ### Names of types -/

/-- Names with points between them. -/
structure DottedName where
  first : String
  more : List String
  named : ∀ name ∈ first :: more, isName name = true

namespace DottedName

def text (n : DottedName) : String :=
  ".".intercalate (n.first :: n.more)

/-- Points with a name behind each of them. -/
def segments (names : List String) : List Lexeme :=
  names.flatMap fun name => [.symbol .dot, .ident name]

def lexemes (n : DottedName) : List Lexeme :=
  .ident n.first :: segments n.more

end DottedName

theorem scanLexeme_dot {c : Char} (hc : isIdentifierStart c = true) (cs : List Char) :
    scanLexeme ('.' :: c :: cs) = .ok (.symbol .dot, c :: cs) := by
  have hne : '.' ≠ c := by
    rintro rfl
    contradiction
  have hsymbol : scanSymbol ('.' :: c :: cs) = some (.symbol .dot, c :: cs) := by
    simp [scanSymbol, spellings, behind, hne]
  have hnegated : scanNegated ('.' :: c :: cs) = none := rfl
  simp only [scanLexeme, hsymbol, hnegated]
  rfl

theorem spelled_dotted {first : String} {more : List String}
    (h : ∀ name ∈ first :: more, isName name = true) :
    Spelled (".".intercalate (first :: more)) (.ident first :: DottedName.segments more) := by
  induction more generalizing first with
  | nil => exact (legible_name (h first List.mem_cons_self)).spelled
  | cons second more ih =>
    obtain ⟨hfirst, hmore⟩ := List.forall_mem_cons.mp h
    obtain ⟨c, cs, hcs, hc, -, hscan⟩ := scanLexeme_word (isWord_of_isName hfirst)
    obtain ⟨d, ds, hds, -, hd, -⟩ :=
      scanLexeme_word (isWord_of_isName (hmore second List.mem_cons_self))
    intro rest ms hrest hms
    have hbehind := ih hmore rest ms hrest hms
    rw [String.intercalate_cons_cons]
    -- Behind the point the text goes on with the second name, and what is behind that.
    obtain ⟨behind, hbegins⟩ : ∃ behind,
        (".".intercalate (second :: more)).toList = second.toList ++ behind := by
      cases more with
      | nil => exact ⟨[], (List.append_nil _).symm⟩
      | cons third more =>
        rw [String.intercalate_cons_cons, String.toList_append, String.toList_append,
          List.append_assoc]
        exact ⟨_, rfl⟩
    rw [hbegins, hds, List.append_assoc, List.cons_append] at hbehind
    have htext : (first ++ "." ++ ".".intercalate (second :: more)).toList ++ rest =
        c :: (cs ++ '.' :: d :: (ds ++ (behind ++ rest))) := by
      simp only [String.toList_append, hcs, hbegins, hds, List.append_assoc, List.cons_append]
      rfl
    have hdot := hbehind.scan (by decide) (scanLexeme_dot hd _)
    rw [htext]
    rw [ofWord_name hfirst] at hscan
    exact hdot.scan hc (hscan _ rfl)

/-! ### Reading types -/

theorem reads_dottedTail (name : String) (more : List String) {ls : List Lexeme}
    (hls : front ls ≠ .symbol .dot) :
    Reads (modifyGet (dottedTail name)) (DottedName.segments more ++ ls)
      (".".intercalate (name :: more)) ls := by
  induction more generalizing name with
  | nil =>
    rintro ts rfl
    have hstop : dottedTail name ts = (name, ts) := by
      unfold dottedTail
      split
      · split
        · exact absurd ‹_› hls
        · rfl
      · rfl
    exact ⟨ts, congrArg Except.ok hstop, rfl⟩
  | cons segment more ih =>
    intro ts hts
    obtain ⟨d, us, rfl, hd, hus⟩ := List.map_eq_cons_iff.mp hts
    obtain ⟨i, vs, rfl, hi, hvs⟩ := List.map_eq_cons_iff.mp hus
    obtain ⟨ts', hread, hts'⟩ := ih (name ++ "." ++ segment) vs hvs
    have hstep : dottedTail name (d :: i :: vs) = dottedTail (name ++ "." ++ segment) vs := by
      rw [dottedTail]
      simp only [hd, hi]
    refine ⟨ts', ?_, hts'⟩
    change Except.ok (dottedTail name (d :: i :: vs)) = _
    rw [hstep]
    exact hread

theorem reads_arraySuffixes (name : String) {ls : List Lexeme}
    (hls : front ls ≠ .symbol .lbracket) : Reads (modifyGet (arraySuffixes name)) ls name ls := by
  rintro ts rfl
  have hstop : arraySuffixes name ts = (name, ts) := by
    unfold arraySuffixes
    split
    · split
      · exact absurd ‹_› hls
      · rfl
    · rfl
  exact ⟨ts, congrArg Except.ok hstop, rfl⟩

/-- A type is nullable if a question mark is taken behind its name. -/
theorem reads_typeRef (n : DottedName) {ls rest : List Lexeme} {nullable : Bool} (hls : Ends 8 ls)
    (hmark : Reads (takeSymbol .question) ls nullable rest) :
    Reads typeRef (n.lexemes ++ ls) ⟨n.text, nullable⟩ rest := by
  have htight : Ends 1 ls := hls.mono (by decide)
  refine (reads_ident .typeName n.first _).bind ?_
  refine (reads_dottedTail n.first n.more (htight.front_ne rfl)).bind ?_
  refine (reads_peek ls).bind ?_
  split
  · exact absurd ‹_› (hls.front_ne rfl)
  · refine (reads_arraySuffixes n.text (htight.front_ne rfl)).bind ?_
    exact hmark.bind (.pure (TypeRef.mk n.text nullable) rest)

/-! ### Type checks -/

def checkMark (negated : Bool) : Lexeme :=
  .keyword (if negated then .notIsType else .isType)

theorem legible_checkMark (negated : Bool) : (checkMark negated).Legible := by
  cases negated
  · exact legible_word rfl (by decide)
  · exact ⟨'!', ['i', 's'], rfl, rfl, fun rest h => by cases h <;> rfl⟩

/-- The text that asks whether an expression has a type. -/
def checkText (words : Bool) (e : Expr) (negated : Bool) (n : DottedName) : String :=
  e.print words ++ " " ++ (checkMark negated).written ++ " " ++ n.text

def checkLexemes (words : Bool) (e : Expr) (negated : Bool) (n : DottedName) : List Lexeme :=
  e.lexemes words ++ [checkMark negated] ++ n.lexemes

theorem Expr.Plain.spelled (words : Bool) {e : Expr} (h : e.Plain) :
    Spelled (e.print words) (e.lexemes words) := by
  obtain ⟨l, rest, hls, -⟩ := h.opens words
  exact spelled_written (hls ▸ List.cons_ne_nil l rest) (h.legible words)

theorem spelled_symbol (s : Symbol) : Spelled s.text [.symbol s] :=
  (legible_symbol s).spelled

theorem spelled_check (words : Bool) {e : Expr} (he : e.Plain) (negated : Bool) (n : DottedName) :
    Spelled (checkText words e negated n) (checkLexemes words e negated n) :=
  ((he.spelled words).space (legible_checkMark negated).spelled).space (spelled_dotted n.named)

section Checks

variable {words negated : Bool} {e : Expr} {n : DottedName}

/-- A type check is read where a comparison may stand. The type is nullable if there is a question
mark behind it. -/
theorem reads_check (he : e.Parsed words) (hrank : e.rank ≤ 8) {ls rest : List Lexeme}
    {nullable : Bool} (hls : Ends 8 ls) (hmark : Reads (takeSymbol .question) ls nullable rest)
    {r : Nat} (hr : 8 ≤ r) (hrest : Ends r rest) {bound : Nat}
    (hbound : (checkLexemes words e negated n).length ≤ bound) :
    Reads (rung bound bound r) (checkLexemes words e negated n ++ ls)
      (.typeCheck e ⟨n.text, nullable⟩ negated) rest := by
  have hleads : LeadsAt 7 e (within 8 e.rank (e.lexemes words)) := he.within_leads (by decide)
  rw [within, if_pos hrank] at hleads
  obtain ⟨used, hused, hlead⟩ := hleads
  simp only [checkLexemes, List.length_append, List.length_singleton] at hbound
  have hstep : Reads (extension (expression bound) bound (rung bound bound 7) 8 e)
      (checkMark negated :: (n.lexemes ++ ls)) (some (.typeCheck e ⟨n.text, nullable⟩ negated))
      rest := by
    have htype := reads_typeRef n hls hmark
    refine (reads_peek _).bind ?_
    cases negated
    · refine (reads_advance (.keyword .isType) _ (by simp)).bind ?_
      exact htype.bind (.pure (some (Expr.typeCheck e ⟨n.text, nullable⟩ false)) rest)
    · refine (reads_advance (.keyword .notIsType) _ (by simp)).bind ?_
      exact htype.bind (.pure (some (Expr.typeCheck e ⟨n.text, nullable⟩ true)) rest)
  have hends : Ends 7 (checkMark negated :: (n.lexemes ++ ls)) := by
    refine .of_rank (k := 8) ?_ (by decide) _
    cases negated <;> rfl
  have hown (count : Nat) (hcount : (e.lexemes words).length ≤ count) : Reads (rung bound count 8)
      (e.lexemes words ++ checkMark negated :: (n.lexemes ++ ls))
      (.typeCheck e ⟨n.text, nullable⟩ negated) rest := by
    have hnone : Reads (extension (expression bound) bound (rung bound bound 7) 8
        (.typeCheck e ⟨n.text, nullable⟩ negated)) rest none rest :=
      reads_noExtension (hrest.mono hr) _
    have hend := reads_chain_end hnone
    have hread := hlead (by omega) hends (reads_chain_step hstep (hend (count - used - 1)))
    rwa [show count - used - 1 + 1 + used = count by omega] at hread
  rw [checkLexemes, List.append_assoc, List.append_assoc]
  exact reads_level hr hown (by omega) hrest (fun h => absurd h (by decide)) bound (by omega)

/-- Inside other expressions a type check may stand. -/
theorem reads_check_inner (he : e.Parsed words) (hrank : e.rank ≤ 8) {ls rest : List Lexeme}
    {nullable : Bool} (hls : Ends 8 ls) (hmark : Reads (takeSymbol .question) ls nullable rest)
    (hrest : Ends 16 rest) {bound : Nat}
    (hbound : (checkLexemes words e negated n).length < bound) :
    Reads (expression bound) (checkLexemes words e negated n ++ ls)
      (.typeCheck e ⟨n.text, nullable⟩ negated) rest := by
  cases bound with
  | zero => contradiction
  | succ bound =>
    rw [expression, ternary_eq]
    exact reads_check he hrank hls hmark (by decide) hrest (Nat.le_of_lt_succ hbound)

end Checks

/-! ### Texts -/

theorem parse_spelled {text : String} {ls : List Lexeme} {e : Expr} (h : Spelled text ls)
    (hread : Reads (expression (ls.length + 1)) (ls ++ [.eof]) e [.eof]) : parse text = .ok e := by
  obtain ⟨tokens, htokens, hlexemes⟩ := h.tokenize
  rw [parse, htokens]
  exact parseTokens_of_reads hread hlexemes

/-- The text of a condition with the branches behind it. -/
def branchesText (words : Bool) (condition : String) (yes no : Expr) : String :=
  condition ++ " ? " ++ yes.print words ++ " : " ++ no.print words

def branchesLexemes (words : Bool) (condition : List Lexeme) (yes no : Expr) : List Lexeme :=
  condition ++ .symbol .question :: (yes.lexemes words ++ .symbol .colon :: no.lexemes words)

theorem Spelled.between {s t : String} {ls ms : List Lexeme} {symbol : Symbol} {between : String}
    (hbetween : " " ++ symbol.text ++ " " = between) (hs : Spelled s ls) (ht : Spelled t ms) :
    Spelled (s ++ between ++ t) (ls ++ .symbol symbol :: ms) := by
  have h := (hs.space (spelled_symbol symbol)).space ht
  rw [List.append_assoc, String.append_assoc, String.append_assoc, String.append_assoc] at h
  rw [← hbetween, String.append_assoc, String.append_assoc, String.append_assoc]
  exact h

section Texts

variable {words negated : Bool} {e yes no : Expr} {n : DottedName} (he : e.Plain)
  (hrank : e.rank ≤ 8) (hyes : yes.Plain) (hno : no.Plain)

include hyes hno in
theorem spelled_branches {condition : String} {ls : List Lexeme} (h : Spelled condition ls) :
    Spelled (branchesText words condition yes no) (branchesLexemes words ls yes no) := by
  have hbranches := (h.between (by decide : " " ++ Symbol.question.text ++ " " = " ? ")
    (hyes.spelled words)).between (by decide : " " ++ Symbol.colon.text ++ " " = " : ")
    (hno.spelled words)
  rw [List.append_assoc] at hbranches
  exact hbranches

include he hrank

/-- A question mark at the end makes the type nullable. -/
theorem parse_nullable :
    parse (checkText words e negated n ++ " ?") = .ok (.typeCheck e ⟨n.text, true⟩ negated) := by
  have hspelled := (spelled_check words he negated n).space (spelled_symbol .question)
  rw [String.append_assoc] at hspelled
  refine parse_spelled hspelled ?_
  rw [List.append_assoc]
  refine reads_check_inner (he.parsed words) hrank (.of_rank rfl (by decide) _)
    (reads_symbol .question _) (.of_none rfl 16 []) ?_
  rw [List.length_append]
  exact Nat.lt_succ_of_le (Nat.le_add_right _ _)

include hyes hno

/-- In parentheses a type check is a condition. -/
theorem parse_checked :
    parse (branchesText words ("( " ++ checkText words e negated n ++ " )") yes no) =
      .ok (.conditional (.typeCheck e ⟨n.text, false⟩ negated) yes no) := by
  have hparens : Spelled ("( " ++ checkText words e negated n ++ " )")
      (.symbol .lparen :: (checkLexemes words e negated n ++ [.symbol .rparen])) := by
    have h := ((spelled_symbol .lparen).space (spelled_check words he negated n)).space
      (spelled_symbol .rparen)
    rw [String.append_assoc] at h
    exact h
  refine parse_spelled (spelled_branches hyes hno hparens) ?_
  generalize hbound : (branchesLexemes words
    (.symbol .lparen :: (checkLexemes words e negated n ++ [.symbol .rparen])) yes no).length = bound
  simp only [branchesLexemes, List.length_append, List.length_cons, List.length_nil] at hbound
  have hlength : (checkLexemes words e negated n).length < bound := by omega
  have hinner (ls : List Lexeme) : Reads (expression bound)
      (checkLexemes words e negated n ++ .symbol .rparen :: ls)
      (.typeCheck e ⟨n.text, false⟩ negated) (.symbol .rparen :: ls) :=
    reads_check_inner (he.parsed words) hrank (.of_none rfl 8 ls)
      (reads_noSymbol .question (.symbol .rparen :: ls) nofun) (.of_none rfl 16 ls) hlength
  have hread := reads_branches (hyes.parsed words) (hno.parsed words)
    (reads_parens (hinner _) (.of_rank rfl (by decide) _) bound) (by omega)
    (.of_none (l := .eof) rfl 16 []) bound
  rw [expression, ternary_eq]
  simpa only [branchesLexemes, List.cons_append, List.append_assoc, List.nil_append] using hread

end Texts

/-! ### Marks that belong together -/

namespace Parser

/-- A question mark takes away what a colon adds, or a type check in front of a nullable type. -/
def mark : Lexeme → Int
  | .symbol .question => -1
  | .symbol .colon | .keyword .isType | .keyword .notIsType => 1
  | _ => 0

@[simp]
theorem mark_question : mark (.symbol .question) = -1 := rfl

@[simp]
theorem mark_colon : mark (.symbol .colon) = 1 := rfl

@[simp]
theorem mark_eof : mark .eof = 0 := rfl

def weight : List Lexeme → Int
  | [] => 0
  | l :: ls => mark l + weight ls

@[simp]
theorem weight_nil : weight [] = 0 := rfl

@[simp]
theorem weight_cons (l : Lexeme) (ls : List Lexeme) : weight (l :: ls) = mark l + weight ls := rfl

@[simp]
theorem weight_append (ls ms : List Lexeme) : weight (ls ++ ms) = weight ls + weight ms := by
  induction ls with
  | nil => exact (Int.zero_add _).symm
  | cons l ls ih => rw [List.cons_append, weight_cons, weight_cons, ih, Int.add_assoc]

theorem mark_of_isFree {l : Lexeme} (h : isFree l = true) : mark l = 0 := by
  unfold mark
  split <;> first | contradiction | rfl

theorem typeBehind_of_isFree {l : Lexeme} (h : isFree l = true) : typeBehind l = none := by
  unfold typeBehind
  split <;> first | contradiction | rfl

/-- Every operator with a type behind it weighs nothing together with that type. -/
def TypesWeighNothing (ts : List Token) : Prop :=
  ∀ t us, t :: us <:+ ts → ∀ type ref rest, typeBehind t.lexeme = some type →
    type us = .ok (ref, rest) →
      weight ((t :: us).map (·.lexeme)) = weight (rest.map (·.lexeme))

/-- From these tokens to the rest, where types weigh nothing, what is between does not either. -/
def WeighsNothing (ts rest : List Token) : Prop :=
  rest <:+ ts ∧ (TypesWeighNothing ts →
    weight (ts.map (·.lexeme)) = weight (rest.map (·.lexeme)))

theorem TypesWeighNothing.suffix {ts us : List Token} (h : TypesWeighNothing ts)
    (hus : us <:+ ts) : TypesWeighNothing us :=
  fun t vs hvs => h t vs (hvs.trans hus)

instance : Course WeighsNothing where
  refl ts := ⟨List.suffix_rfl, fun _ => rfl⟩
  trans := by
    rintro ts us vs ⟨hus, hts⟩ ⟨hvs, hus'⟩
    exact ⟨hvs.trans hus, fun h => (hts h).trans (hus' (h.suffix hus))⟩
  token := by
    intro t ts ht
    refine ⟨List.suffix_cons t ts, fun _ => ?_⟩
    rw [List.map_cons, weight_cons, mark_of_isFree ht, Int.zero_add]
  braces := by
    rintro l r ts rest hl hr ⟨hrest, hts⟩
    refine ⟨((List.suffix_cons r rest).trans hrest).trans (List.suffix_cons l ts), fun h => ?_⟩
    have hbody := hts (h.suffix (List.suffix_cons l ts))
    simpa [hl, hr, mark] using hbody
  branches := by
    rintro q c ts rest hq hc ⟨hrest, hts⟩
    refine ⟨((List.suffix_cons c rest).trans hrest).trans (List.suffix_cons q ts), fun h => ?_⟩
    have hbody := hts (h.suffix (List.suffix_cons q ts))
    simp only [List.map_cons, weight_cons, hq, hc, mark_question, mark_colon] at hbody ⊢
    omega
  typed := by
    intro t ts rest type ref htype hread
    have hbehind : rest <:+ ts := typeBehind_behind htype _ _ _ hread
    exact ⟨hbehind.trans (List.suffix_cons t ts),
      fun h => h t ts List.suffix_rfl type ref rest htype hread⟩

end Parser

/-- No operator among the lexemes has a type behind it, and they weigh nothing. -/
structure Paired (ls : List Lexeme) : Prop where
  untyped : ∀ l ∈ ls, typeBehind l = none
  weightless : weight ls = 0

namespace Paired

variable {ls ms : List Lexeme}

theorem nil : Paired [] :=
  ⟨List.forall_mem_nil _, rfl⟩

theorem append (h : Paired ls) (h' : Paired ms) : Paired (ls ++ ms) := by
  refine ⟨List.forall_mem_append.mpr ⟨h.untyped, h'.untyped⟩, ?_⟩
  rw [weight_append, h.weightless, h'.weightless]
  rfl

theorem cons {l : Lexeme} (hl : isFree l = true) (h : Paired ls) : Paired (l :: ls) := by
  refine ⟨List.forall_mem_cons.mpr ⟨typeBehind_of_isFree hl, h.untyped⟩, ?_⟩
  rw [weight_cons, mark_of_isFree hl, h.weightless]
  rfl

theorem branches (h : Paired ls) (h' : Paired ms) :
    Paired (.symbol .question :: (ls ++ .symbol .colon :: ms)) := by
  constructor
  · simp only [List.forall_mem_cons, List.forall_mem_append]
    exact ⟨rfl, h.untyped, rfl, h'.untyped⟩
  · simp [h.weightless, h'.weightless]

theorem within (h : Paired ls) (limit rank : Nat) : Paired (within limit rank ls) := by
  unfold Syntax.within
  split
  · exact h
  · exact .cons rfl (h.append (.cons rfl .nil))

theorem arguments {words : Bool} {args : List Expr}
    (h : ∀ a ∈ args, Paired (a.lexemes words)) : Paired (argumentLexemes words args) := by
  induction args with
  | nil => exact .nil
  | cons a more ih =>
    obtain ⟨ha, hmore⟩ := List.forall_mem_cons.mp h
    cases more with
    | nil => exact ha
    | cons b more => exact ha.append (.cons rfl (ih hmore))

end Paired

theorem isFree_operator (words : Bool) (op : BinaryOp) : isFree (op.lexeme words) = true := by
  cases op <;> cases words <;> rfl

/-- In the lexemes of a plain tree the marks of conditionals are in pairs. -/
theorem Expr.Plain.paired (words : Bool) {e : Expr} (h : e.Plain) : Paired (e.lexemes words) := by
  induction h with
  | int | long | bool | null | this | name => exact .cons rfl .nil
  | unary op operand ho =>
    refine .cons ?_ (ho.within 2 _)
    cases op <;> rfl
  | binary op left right hl hr =>
    exact (hl.within _ _).append (.cons (isFree_operator words op) (hr.within _ _))
  | elvis left right hl hr => exact (hl.within _ _).append (.cons rfl (hr.within _ _))
  | conditional condition first second hc hyes hno =>
    exact (hc.within _ _).append (hyes.branches hno)
  | contains negated element whole he hw =>
    refine (he.within _ _).append (.cons ?_ (hw.within _ _))
    cases negated <;> rfl
  | range kind first last ha hb =>
    refine (ha.within _ _).append (.cons ?_ (hb.within _ _))
    cases kind <;> rfl
  | stepped kind first last step ha hb hs =>
    refine (ha.within _ _).append (.cons ?_ ((hb.within _ _).append (.cons rfl (hs.within _ _))))
    cases kind <;> rfl
  | index target place ht hp =>
    exact (ht.within _ _).append (.cons rfl (hp.append (.cons rfl .nil)))
  | member safe target named ht =>
    refine (ht.within _ _).append (.cons ?_ (.cons rfl .nil))
    cases safe <;> rfl
  | call named lower passed hargs =>
    exact .cons rfl (.cons rfl ((Paired.arguments hargs).append (.cons rfl .nil)))
  | callOn safe receiver named lower passed hr hargs =>
    refine (hr.within _ _).append (.cons ?_ (.cons rfl (.cons rfl
      ((Paired.arguments hargs).append (.cons rfl .nil)))))
    cases safe <;> rfl

theorem DottedName.paired (n : DottedName) : Paired n.lexemes := by
  have hsegments (names : List String) : Paired (segments names) := by
    induction names with
    | nil => exact .nil
    | cons name names ih => exact .cons rfl (.cons rfl ih)
  exact .cons rfl (hsegments n.more)

/-! ### Conditions -/

/-- The lexeme that is not like the others is where the end of the list begins with such a one. -/
theorem eq_of_suffix {α : Type} {p : α → Prop} {x m : α} {xs front behind : List α}
    (h : x :: xs <:+ front ++ m :: behind) (hx : p x) (hfront : ∀ y ∈ front, ¬ p y)
    (hbehind : ∀ y ∈ behind, ¬ p y) : x = m ∧ xs = behind := by
  induction front with
  | nil =>
    rcases List.suffix_cons_iff.mp h with heq | hsuffix
    · exact List.cons.inj heq
    · exact absurd hx (hbehind x (hsuffix.mem List.mem_cons_self))
  | cons y front ih =>
    obtain ⟨hy, hfront⟩ := List.forall_mem_cons.mp hfront
    rcases List.suffix_cons_iff.mp h with heq | hsuffix
    · obtain ⟨rfl, -⟩ := List.cons.inj heq
      exact absurd hx hy
    · exact ih hsuffix hfront

theorem mark_checkMark (negated : Bool) : mark (checkMark negated) = 1 := by
  cases negated <;> rfl

/-- The only type is the one behind the check, and the question mark is taken for it. -/
theorem typesWeighNothing_check {tokens : List Token} {ls more : List Lexeme} {negated : Bool}
    {n : DottedName} (hls : Paired ls) (hmore : ∀ l ∈ more, typeBehind l = none)
    (htokens : tokens.map (·.lexeme) =
      ls ++ checkMark negated :: (n.lexemes ++ .symbol .question :: more)) :
    TypesWeighNothing tokens := by
  have hbehind : ∀ l ∈ n.lexemes ++ .symbol .question :: more, typeBehind l = none := by
    simp only [List.forall_mem_append, List.forall_mem_cons]
    exact ⟨n.paired.untyped, rfl, hmore⟩
  intro t us hsuffix type ref rest htype hread
  have hlexemes := hsuffix.map (·.lexeme)
  rw [List.map_cons, htokens] at hlexemes
  obtain ⟨ht, hus⟩ := eq_of_suffix (p := fun l => typeBehind l ≠ none) hlexemes
    (by rw [htype]; exact Option.some_ne_none type) (fun l hl => not_not.mpr (hls.untyped l hl))
    (fun l hl => not_not.mpr (hbehind l hl))
  obtain rfl : typeRef = type := by
    rw [ht] at htype
    cases negated <;> exact Option.some.inj htype
  obtain ⟨left, hleft, hrest⟩ := reads_typeRef n (.of_rank rfl (by decide) more)
    (reads_symbol .question more) us hus
  obtain ⟨-, rfl⟩ := Prod.mk.inj (Except.ok.inj (hleft.symm.trans hread))
  rw [List.map_cons, ht, hus, hrest, weight_cons, weight_append, weight_cons, mark_checkMark,
    mark_question, n.paired.weightless]
  omega

/-- Without parentheses a type check is no condition, for its type takes the question mark. -/
theorem parse_unchecked {words negated : Bool} {e yes no : Expr} {n : DottedName} (he : e.Plain)
    (hyes : yes.Plain) (hno : no.Plain) : ∃ tokens cause,
      tokenize (branchesText words (checkText words e negated n) yes no) = .ok tokens ∧
        parse (branchesText words (checkText words e negated n) yes no) = .error cause := by
  have hspelled : Spelled (branchesText words (checkText words e negated n) yes no) _ :=
    spelled_branches hyes hno (spelled_check words he negated n)
  obtain ⟨tokens, htokens, hlexemes⟩ := hspelled.tokenize
  cases hresult : parseTokens tokens with
  | error cause =>
    refine ⟨tokens, cause, htokens, ?_⟩
    rw [parse, htokens]
    exact hresult
  | ok tree =>
    exfalso
    generalize hmore : yes.lexemes words ++ .symbol .colon :: (no.lexemes words ++ [.eof]) = more
    have hlexemes : tokens.map (·.lexeme) =
        e.lexemes words ++ checkMark negated :: (n.lexemes ++ .symbol .question :: more) := by
      rw [hlexemes, branchesLexemes, checkLexemes, ← hmore]
      simp only [List.append_assoc, List.cons_append, List.nil_append]
    have huntyped : ∀ l ∈ more, typeBehind l = none := by
      rw [← hmore]
      simp only [List.forall_mem_append, List.forall_mem_cons]
      exact ⟨(hyes.paired words).untyped, rfl, (hno.paired words).untyped, rfl, List.forall_mem_nil _⟩
    have hheavy : weight (tokens.map (·.lexeme)) = 1 := by
      rw [hlexemes, ← hmore]
      simp [(he.paired words).weightless, (hyes.paired words).weightless,
        (hno.paired words).weightless, n.paired.weightless, mark_checkMark]
    have htypes := typesWeighNothing_check (he.paired words) huntyped hlexemes
    obtain ⟨before, rfl, hended⟩ := (laid_of_tokenize htokens).ended
    have hstops (size : Nat) : Stops (current [⟨.eof, size⟩]) := .eof
    obtain ⟨⟨-, hlight⟩, -⟩ :=
      hended.reads hresult WeighsNothing (hstops 0) (Nat.lt_succ_self _)
    have hequal : (1 : Int) = 0 := hheavy.symm.trans (hlight htypes)
    contradiction

/-- What is read of a type check, of a comparison or what binds tighter, in front of a question
mark. The mark makes the type nullable, so only between parentheses the check is a condition. -/
theorem typeCheck_question {e yes no : Expr} (he : e.Plain) (hrank : e.rank ≤ 8) (hyes : yes.Plain)
    (hno : no.Plain) (words negated : Bool) (n : DottedName) :
    (∃ tokens cause,
        tokenize (branchesText words (checkText words e negated n) yes no) = .ok tokens ∧
          parse (branchesText words (checkText words e negated n) yes no) = .error cause) ∧
      parse (branchesText words ("( " ++ checkText words e negated n ++ " )") yes no) =
        .ok (.conditional (.typeCheck e ⟨n.text, false⟩ negated) yes no) ∧
      parse (checkText words e negated n ++ " ?") = .ok (.typeCheck e ⟨n.text, true⟩ negated) :=
  ⟨parse_unchecked he hyes hno, parse_checked he hrank hyes hno, parse_nullable he hrank⟩

/-- A range and names of operators around a type check. -/
theorem typeCheck_question_range :
    (∃ tokens cause, tokenize "a until b !is java.util.List ? and : or + 1" = .ok tokens ∧
        parse "a until b !is java.util.List ? and : or + 1" = .error cause) ∧
      parse "( a until b !is java.util.List ) ? and : or + 1" =
        .ok (.conditional
          (.typeCheck (.range .until (.name "a") (.name "b") none) ⟨"java.util.List", false⟩ true)
          (.name "and") (.binary .add (.name "or") (.literal (.int 1)))) ∧
      parse "a until b !is java.util.List ?" =
        .ok (.typeCheck (.range .until (.name "a") (.name "b") none) ⟨"java.util.List", true⟩
          true) := by
  have he : (Expr.range .until (.name "a") (.name "b") none).Plain :=
    .range .until (.name (by decide)) (.name (by decide))
  have hyes : (Expr.name "and").Plain := .name (by decide)
  have hno : (Expr.binary .add (.name "or") (.literal (.int 1))).Plain :=
    .binary .add (.name (by decide)) (.int (by decide))
  let n : DottedName := ⟨"java", ["util", "List"], by decide⟩
  exact typeCheck_question he (by decide) hyes hno false true n

/-- A type check that is no condition. -/
theorem typeCheck_no_condition : (parse "x is Foo ? 1 : 2").isOk = false := by
  decide +kernel

end Debugger.Syntax
