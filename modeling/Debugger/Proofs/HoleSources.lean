import Debugger.Proofs.Layout

/-!
Where the sources of holes come from. Each hole in the tree of a text is written in a string of the
text, between its dollar sign and braces; so its source is shorter than the text by them and by the
quotation marks of the string.
-/

namespace Debugger.Syntax

open Text

/-! ### Holes of lexemes and trees -/

def TemplatePart.source? : TemplatePart → Option String
  | .hole source => some source
  | _ => none

/-- The sources of the holes among the parts of a string. -/
def holesAmong (parts : List TemplatePart) : List String :=
  parts.filterMap TemplatePart.source?

def Lexeme.holes : Lexeme → List String
  | .template parts => holesAmong parts
  | _ => []

mutual

/-- The sources of all holes in a tree, wherever they are in it. -/
def Expr.holes : Expr → List String
  | .literal _ | .name _ | .this => []
  | .unary _ e | .member e _ _ | .typeCheck e _ _ | .cast e _ _ | .lambda _ e | .spread e => e.holes
  | .binary _ l r | .elvis l r | .index l r | .contains l r _ => l.holes ++ r.holes
  | .call none _ args _ => Expr.holesOf args
  | .call (some receiver) _ args _ => receiver.holes ++ Expr.holesOf args
  | .conditional condition yes no => condition.holes ++ yes.holes ++ no.holes
  | .construct _ args => Expr.holesOf args
  | .template parts => holesAmong parts
  | .range _ first last none => first.holes ++ last.holes
  | .range _ first last (some step) => first.holes ++ last.holes ++ step.holes

def Expr.holesOf : List Expr → List String
  | [] => []
  | e :: es => e.holes ++ Expr.holesOf es

end

/-! ### Holes in a text -/

/-- The source stands as a hole in front of the quotation mark behind which the rest begins. -/
def HoleIn (source : String) (cs rest : List Char) : Prop :=
  ∃ before behind,
    cs = before ++ '$' :: '\x7b' :: (source.toList ++ '\x7d' :: (behind ++ '"' :: rest))

/-- The source stands as a hole between two quotation marks of the text. -/
def Embeds (source : String) (cs : List Char) : Prop :=
  ∃ before string rest, cs = before ++ '"' :: string ∧ HoleIn source string rest

theorem HoleIn.append {source : String} {cs rest : List Char} (h : HoleIn source cs rest)
    (front : List Char) : HoleIn source (front ++ cs) rest := by
  obtain ⟨before, behind, rfl⟩ := h
  exact ⟨front ++ before, behind, (List.append_assoc ..).symm⟩

theorem Embeds.append {source : String} {cs : List Char} (h : Embeds source cs)
    (front : List Char) : Embeds source (front ++ cs) := by
  obtain ⟨before, string, rest, rfl, hhole⟩ := h
  exact ⟨front ++ before, string, rest, (List.append_assoc ..).symm, hhole⟩

/-- A hole is a part of its text, and shorter by five bytes. -/
theorem Embeds.part {source text : String} (h : Embeds source text.toList) :
    source.toList <:+: text.toList ∧ source.utf8ByteSize + 5 ≤ text.utf8ByteSize := by
  obtain ⟨before, string, rest, htext, inside, behind, rfl⟩ := h
  have hsplit : text.toList = (before ++ '"' :: inside ++ ['$', '\x7b']) ++ source.toList ++
      ('\x7d' :: behind ++ '"' :: rest) := by
    simp [htext]
  refine ⟨⟨_, _, hsplit.symm⟩, ?_⟩
  rw [← byteLength_toList, ← byteLength_toList, hsplit]
  simp only [byteLength_append, byteLength, List.cons_append]
  have h1 := Char.utf8Size_pos '"'
  have h2 := Char.utf8Size_pos '$'
  have h3 := Char.utf8Size_pos '\x7b'
  have h4 := Char.utf8Size_pos '\x7d'
  omega

/-! ### Scanning -/

theorem holesAmong_append (parts more : List TemplatePart) :
    holesAmong (parts ++ more) = holesAmong parts ++ holesAmong more :=
  List.filterMap_append

theorem holesAmong_text (reversed : List Char) : holesAmong (textPart reversed) = [] := by
  unfold textPart
  split <;> rfl

theorem holes_closeString (parts : List TemplatePart) (reversed : List Char) :
    (closeString parts reversed).holes ⊆ holesAmong parts := by
  unfold closeString
  split
  · exact List.nil_subset _
  · rw [Lexeme.holes, holesAmong_append, holesAmong_text, List.append_nil]
    exact List.Subset.refl _

/-- What was read of a string from some place in it up to the rest: its holes are in front of that
place or behind it. -/
structure Strung (parts : List TemplatePart) (cs : List Char) (l : Lexeme) (rest : List Char) :
    Prop where
  quote : ∃ body, cs = body ++ '"' :: rest
  holes : ∀ source ∈ l.holes, source ∈ holesAmong parts ∨ HoleIn source cs rest

namespace Strung

variable {parts : List TemplatePart} {cs rest reversed : List Char} {l : Lexeme}

theorem append (h : Strung parts cs l rest) (front : List Char) :
    Strung parts (front ++ cs) l rest := by
  obtain ⟨body, rfl⟩ := h.quote
  refine ⟨⟨front ++ body, (List.append_assoc ..).symm⟩, fun source hsource => ?_⟩
  exact (h.holes source hsource).imp_right (HoleIn.append · front)

theorem hole {source : List Char}
    (h : Strung (parts ++ textPart reversed ++ [.hole (String.ofList source)]) cs l rest) :
    Strung parts ('$' :: '\x7b' :: (source ++ '\x7d' :: cs)) l rest := by
  have hfront : '$' :: '\x7b' :: (source ++ '\x7d' :: cs) =
      ('$' :: '\x7b' :: (source ++ ['\x7d'])) ++ cs := by simp
  refine ⟨?_, fun inner hinner => ?_⟩
  · rw [hfront]
    exact (h.append _).quote
  · rcases h.holes inner hinner with hpart | hbehind
    · rw [holesAmong_append, holesAmong_append, holesAmong_text, List.append_nil] at hpart
      rcases List.mem_append.mp hpart with hold | hnew
      · exact .inl hold
      · obtain rfl : inner = String.ofList source := List.mem_singleton.mp hnew
        obtain ⟨body, hbody⟩ := h.quote
        exact .inr ⟨[], body, by rw [String.toList_ofList, hbody]; rfl⟩
    · rw [hfront]
      exact .inr (hbehind.append _)

theorem of_scanString {start : List Char}
    (h : scanString start parts reversed cs = .ok (l, rest)) : Strung parts cs l rest := by
  fun_induction scanString start parts reversed cs
  all_goals try contradiction
  case case3 parts reversed rest hline =>
    cases h
    exact ⟨⟨[], rfl⟩, fun source hsource => .inl (holes_closeString parts reversed hsource)⟩
  case case5 cs value after hescape _ _ ih =>
    obtain ⟨taken, -, rfl, -⟩ := scanEscape_closed hescape
    exact (ih h).append ('\\' :: taken)
  case case6 ih => exact (ih h).append ['$']
  case case8 cs source after htake _ _ _ ih =>
    rw [takeHole_eq htake]
    exact (ih h).hole
  case case9 parts reversed c cs hbrace hstart _ _ _ ih =>
    have hname : '$' :: c :: cs =
        '$' :: c :: cs.takeWhile isIdentifierContinue ++ cs.dropWhile isIdentifierContinue := by
      simp
    have hrest := (ih h).append ('$' :: c :: cs.takeWhile isIdentifierContinue)
    refine ⟨hname ▸ hrest.quote, fun source hsource => ?_⟩
    have hold := hrest.holes source hsource
    rw [holesAmong_append, holesAmong_append, holesAmong_text, List.append_nil] at hold
    rw [hname]
    exact hold.imp_left fun hmem => (List.mem_append.mp hmem).resolve_right List.not_mem_nil
  case case10 ih => exact (ih h).append ['$']
  case case11 c _ _ _ _ _ ih => exact (ih h).append [c]

end Strung

/-! ### Tokens -/

theorem holes_ofWord (word : String) : (Lexeme.ofWord word).holes = [] := by
  have hreserved : ∀ e ∈ Lexeme.reserved, e.2.holes = [] := by decide
  unfold Lexeme.ofWord
  cases hword : Lexeme.reserved.lookup word with
  | none => rfl
  | some l =>
    obtain ⟨before, after, hentry, -⟩ := List.lookup_eq_some_iff.mp hword
    exact hreserved (word, l) (by simp [hentry])

theorem holes_scanNegated {cs rest : List Char} {l : Lexeme} (h : scanNegated cs = some (l, rest)) :
    l.holes = [] := by
  obtain ⟨word, hword, -⟩ := scanNegated_eq_some_iff.mp h
  exact (by decide : ∀ e ∈ negations, e.2.holes = []) _ hword

theorem holes_scanSymbol {cs rest : List Char} {l : Lexeme} (h : scanSymbol cs = some (l, rest)) :
    l.holes = [] := by
  obtain ⟨⟨spelling, lexeme⟩, hm, hspelling⟩ := List.exists_of_findSome?_eq_some h
  obtain ⟨after, hbehind, he⟩ := Option.map_eq_some_iff.mp hspelling
  cases he
  exact (by decide : ∀ e ∈ spellings, e.2.holes = []) _ hm

/-- The holes of a lexeme are in the string that it is read from. -/
theorem scanLexeme_embeds {c : Char} {cs rest : List Char} {l : Lexeme}
    (h : scanLexeme (c :: cs) = .ok (l, rest)) : ∀ source ∈ l.holes, Embeds source (c :: cs) := by
  have hnone (hl : l.holes = []) : ∀ source ∈ l.holes, Embeds source (c :: cs) := by
    rw [hl]
    exact List.forall_mem_nil _
  simp only [scanLexeme] at h
  split at h
  · rename_i hquote
    subst hquote
    intro source hsource
    exact ⟨[], cs, rest, rfl, ((Strung.of_scanString h).holes source hsource).resolve_left
      List.not_mem_nil⟩
  split at h
  · obtain ⟨value, rfl, -⟩ := scanChar_unmoved h
    exact hnone rfl
  split at h
  · obtain ⟨⟨v, rfl⟩, -⟩ := scanNumber_unmoved (c :: cs) l rest h
    exact hnone rfl
  split at h
  · cases h
    exact hnone (holes_ofWord _)
  split at h
  · rename_i hscan
    cases h
    cases hnegated : scanNegated (c :: cs) with
    | some scanned =>
      rw [hnegated] at hscan
      cases hscan
      exact hnone (holes_scanNegated hnegated)
    | none =>
      rw [hnegated] at hscan
      exact hnone (holes_scanSymbol hscan)
  · contradiction

theorem tokensFrom_embeds {size : Nat} {cs : List Char} {tokens : List Token}
    (h : tokensFrom size cs = .ok tokens) :
    ∀ t ∈ tokens, ∀ source ∈ t.lexeme.holes, Embeds source cs := by
  fun_induction tokensFrom size cs generalizing tokens with
  | case1 =>
    cases h
    exact List.forall_mem_singleton.mpr (List.forall_mem_nil _)
  | case2 | case3 => contradiction
  | case4 cs c more hdrop l rest hscan others hothers ih =>
    cases h
    obtain ⟨taken, -, htaken, -⟩ := scanLexeme_takes (List.cons_ne_nil c more) hscan
    rw [← List.takeWhile_append_dropWhile (p := isBlank) (l := cs), hdrop]
    refine List.forall_mem_cons.mpr ⟨fun source hsource => ?_, fun t ht source hsource => ?_⟩
    · exact (scanLexeme_embeds hscan source hsource).append _
    · rw [htaken]
      exact ((ih hothers t ht source hsource).append taken).append _

/-! ### Trees -/

namespace Parser

/-- Every hole of the tokens has the property. -/
def Sourced (P : String → Prop) (ts : List Token) : Prop :=
  ∀ t ∈ ts, ∀ source ∈ t.lexeme.holes, P source

/-- From tokens whose holes have the property the parser makes what is good, and leaves such
tokens. -/
def Makes {α : Type} (P : String → Prop) (good : α → Prop) (p : Parser α) : Prop :=
  ∀ ts, Sourced P ts → ∀ a rest, p ts = .ok (a, rest) → good a ∧ Sourced P rest

variable {P : String → Prop}

theorem Sourced.behind {ts rest : List Token} (h : Sourced P ts) (hrest : Behind ts rest) :
    Sourced P rest :=
  fun t ht => h t (hrest.subset ht)

namespace Makes

variable {α β : Type} {p : Parser α} {f : α → Parser β} {good : α → Prop} {fine : β → Prop}

theorem bind (hp : Makes P good p) (hf : ∀ a, good a → Makes P fine (f a)) :
    Makes P fine (p >>= f) := by
  intro ts hts b rest h
  obtain ⟨a, us, hpa, hfb⟩ := bind_ok h
  obtain ⟨ha, hus⟩ := hp ts hts a us hpa
  exact hf a ha us hus b rest hfb

theorem pure {a : α} (h : good a) : Makes P good (Pure.pure a : Parser α) := by
  intro ts hts b rest hrun
  cases hrun
  exact ⟨h, hts⟩

theorem map (hp : Makes P good p) {g : α → β} (hg : ∀ a, good a → fine (g a)) :
    Makes P fine (g <$> p) := by
  rw [map_eq_pure_bind]
  exact hp.bind fun a ha => .pure (hg a ha)

/-- A parser that leaves the end of what it is given, whatever it makes. -/
theorem of_behind (h : Leaves Behind p) : Makes P (fun _ => True) p :=
  fun ts hts a rest hrun => ⟨trivial, hts.behind (h ts a rest hrun)⟩

theorem unexpected (expected : Expected) :
    Makes P good (Parser.unexpected expected : Parser α) := fun ts _ a rest h =>
  (leaves_unexpected (R := fun _ _ => False) expected ts a rest h).elim

theorem peek : Makes P (fun l => ∀ source ∈ l.holes, P source) peek := by
  intro ts hts l rest h
  cases h
  refine ⟨?_, hts⟩
  cases ts with
  | nil => exact List.forall_mem_nil _
  | cons t ts => exact hts t List.mem_cons_self

theorem advance : Makes P (fun _ => True) advance := by
  intro ts hts a rest h
  cases ts with
  | nil =>
    cases h
    exact ⟨trivial, hts⟩
  | cons t ts =>
    obtain ⟨l, offset⟩ := t
    cases l <;> cases h <;>
      first | exact ⟨trivial, hts⟩ | exact ⟨trivial, hts.behind (List.suffix_cons _ ts)⟩

theorem takeSymbol (s : Symbol) : Makes P (fun _ => True) (takeSymbol s) := by
  refine peek.bind fun l _ => ?_
  split
  · split
    · exact advance.bind fun _ _ => .pure trivial
    · exact .pure trivial
  · exact .pure trivial

theorem takeWord (word : String) : Makes P (fun _ => True) (takeWord word) :=
  of_behind (leaves_takeWord word)

theorem expect (s : Symbol) : Makes P (fun _ => True) (expect s) := by
  refine (takeSymbol s).bind fun taken _ => ?_
  cases taken
  · exact unexpected _
  · exact .pure trivial

theorem ident (expected : Expected) : Makes P (fun _ => True) (ident expected) :=
  of_behind (leaves_ident expected)

theorem typeRef : Makes P (fun _ => True) typeRef :=
  of_behind typeRef_behind

end Makes

/-! ### Productions -/

theorem holesOf_append (es fs : List Expr) :
    Expr.holesOf (es ++ fs) = Expr.holesOf es ++ Expr.holesOf fs := by
  induction es with
  | nil => rfl
  | cons e es ih => rw [List.cons_append, Expr.holesOf, ih, ← List.append_assoc]; rfl

/-- Every hole of the tree has the property. -/
def Clean (P : String → Prop) (e : Expr) : Prop :=
  ∀ source ∈ e.holes, P source

/-- Every hole of the arguments has the property. -/
def CleanArgs (P : String → Prop) (es : List Expr) : Prop :=
  ∀ source ∈ Expr.holesOf es, P source

theorem CleanArgs.nil : CleanArgs P [] :=
  List.forall_mem_nil _

theorem CleanArgs.append {es fs : List Expr} (h : CleanArgs P es) (h' : CleanArgs P fs) :
    CleanArgs P (es ++ fs) := by
  intro source hsource
  rw [holesOf_append] at hsource
  exact (List.mem_append.mp hsource).elim (h source) (h' source)

theorem CleanArgs.singleton {e : Expr} (h : Clean P e) : CleanArgs P [e] := by
  intro source hsource
  rw [Expr.holesOf, Expr.holesOf, List.append_nil] at hsource
  exact h source hsource

/-- Whether the tree, if there is one, is clean. -/
def CleanIf (P : String → Prop) (e : Option Expr) : Prop :=
  ∀ longer, e = some longer → Clean P longer

theorem CleanIf.some {e : Expr} (h : Clean P e) : CleanIf P (some e) :=
  fun _ hsome => Option.some.inj hsome ▸ h

theorem CleanIf.none : CleanIf P none :=
  fun _ => nofun

/-- The holes of a tree are those of its two parts. -/
theorem clean_append {holes more : List String} (h : ∀ source ∈ holes, P source)
    (h' : ∀ source ∈ more, P source) : ∀ source ∈ holes ++ more, P source :=
  List.forall_mem_append.mpr ⟨h, h'⟩

theorem methodCall_clean {target : Expr} {args : List Expr} (htarget : Clean P target)
    (hargs : CleanArgs P args) (name : String) (safe : Bool) :
    Clean P (methodCall target name args safe) := by
  have hcall : Clean P (.call (some target) name args safe) :=
    clean_append htarget hargs
  unfold methodCall
  split
  · split
    · exact hargs
    · exact hcall
  · exact hcall

section Levels

variable {inner next : Parser Expr} {bound : Nat} (hinner : Makes P (Clean P) inner)

include hinner

theorem lambda_makes : Makes P (Clean P) (lambda inner) := by
  have hbody (params : List String) : Makes P (Clean P)
      (do let body ← inner; expect .rbrace; return .lambda params body : Parser Expr) :=
    hinner.bind fun body hbody => (Makes.expect _).bind fun _ _ => .pure hbody
  refine (Makes.expect _).bind fun _ _ => ?_
  intro ts hts e rest hrun
  obtain ⟨_, _, hget, h⟩ := bind_ok hrun
  cases hget
  split at h
  · rename_i names us hnames
    obtain ⟨taken, htaken, -⟩ := lambdaParams_closes hnames
    exact hbody names us (hts.behind ⟨taken, htaken.symm⟩) e rest h
  · obtain ⟨⟨⟩, us, harrow, h⟩ := bind_ok h
    have hbehind : Behind ts us := (leaves_takeSymbol rfl).map _ ts _ _ harrow
    exact hbody [] us (hts.behind hbehind) e rest h

theorem arguments_makes (n : Nat) : Makes P (CleanArgs P) (arguments inner n) := by
  induction n with
  | zero => exact .unexpected .expression
  | succ n ih =>
    refine (Makes.takeSymbol _).bind fun star _ => ?_
    have hmore (arg : Expr) (harg : Clean P arg) : Makes P (CleanArgs P) (do
        if ← takeSymbol .comma then
          return arg :: (← arguments inner n)
        expect .rparen
        return [arg]) := by
      refine (Makes.takeSymbol _).bind fun comma _ => ?_
      split
      · exact ih.bind fun args hargs => .pure ((CleanArgs.singleton harg).append hargs)
      · exact (Makes.expect _).bind fun _ _ => .pure (.singleton harg)
    split
    · have hspread : Makes P (Clean P) (Expr.spread <$> inner) := hinner.map fun _ he => he
      exact hspread.bind hmore
    · exact hinner.bind hmore

theorem callArguments_makes (bound : Nat) :
    Makes P (CleanArgs P) (callArguments inner bound) := by
  have hlambda (args : List Expr) (hargs : CleanArgs P args) :
      Makes P (CleanArgs P) (lambdaBehind inner args) := by
    refine Makes.peek.bind fun l _ => ?_
    split
    · exact (lambda_makes hinner).bind fun e he => .pure (hargs.append (.singleton he))
    · exact .pure hargs
  refine (Makes.takeSymbol _).bind fun opened _ => ?_
  split
  · refine (Makes.takeSymbol _).bind fun closed _ => ?_
    split
    · exact hlambda [] .nil
    · exact (arguments_makes hinner bound).bind hlambda
  · exact hlambda [] .nil

theorem conditional_makes : Makes P (Clean P) (conditional inner) := by
  refine (Makes.expect _).bind fun _ _ => hinner.bind fun condition hcondition => ?_
  refine (Makes.expect _).bind fun _ _ => hinner.bind fun yes hyes => ?_
  have hno : Makes P (Clean P) (do return Expr.conditional condition yes (← inner)) :=
    hinner.bind fun no hno => .pure (clean_append (clean_append hcondition hyes) hno)
  refine Makes.peek.bind fun l _ => ?_
  split
  · exact Makes.advance.bind fun _ _ => hno
  · have hfails : Makes P (fun _ : Unit => True) (unexpected .elseBranch) := .unexpected _
    exact hfails.bind fun _ _ => hno

theorem named_makes (bound : Nat) (name : String) :
    Makes P (Clean P) (named inner bound name) := by
  refine Makes.peek.bind fun l _ => ?_
  split
  · refine (callArguments_makes hinner bound).bind fun args hargs => .pure ?_
    split <;> exact hargs
  · exact .pure (List.forall_mem_nil _)

theorem primary_makes (bound : Nat) : Makes P (Clean P) (primary inner bound) := by
  refine Makes.peek.bind fun l hl => ?_
  have hleaf {e : Expr} (he : e.holes = []) : Clean P e := by
    rw [Clean, he]
    exact List.forall_mem_nil _
  split
  · exact Makes.advance.bind fun _ _ => .pure (hleaf rfl)
  · exact Makes.advance.bind fun _ _ => .pure hl
  · exact Makes.advance.bind fun _ _ => .pure (hleaf rfl)
  · exact Makes.advance.bind fun _ _ => conditional_makes hinner
  · exact Makes.advance.bind fun _ _ => named_makes hinner bound _
  · refine Makes.advance.bind fun _ _ => hinner.bind fun e he => ?_
    exact (Makes.expect _).bind fun _ _ => .pure he
  · exact lambda_makes hinner
  · exact .unexpected _

theorem memberOrCall_makes (bound : Nat) {target : Expr} (htarget : Clean P target)
    (safe : Bool) : Makes P (Clean P) (memberOrCall inner bound target safe) := by
  refine (Makes.ident _).bind fun name _ => Makes.peek.bind fun l _ => ?_
  have hcall : Makes P (Clean P) (do
      return methodCall target name (← callArguments inner bound) safe) :=
    (callArguments_makes hinner bound).bind fun args hargs =>
      .pure (methodCall_clean htarget hargs name safe)
  split
  · exact hcall
  · exact hcall
  · exact .pure htarget

theorem suffix_makes (bound : Nat) {e : Expr} (he : Clean P e) :
    Makes P (CleanIf P) (suffix inner bound e) := by
  have hmember (safe : Bool) :
      Makes P (CleanIf P) (some <$> memberOrCall inner bound e safe) :=
    (memberOrCall_makes hinner bound he safe).map fun _ => .some
  refine Makes.peek.bind fun l _ => ?_
  split
  · exact Makes.advance.bind fun _ _ => hmember false
  · exact Makes.advance.bind fun _ _ => hmember true
  · refine Makes.advance.bind fun _ _ => hinner.bind fun i hi => ?_
    exact (Makes.expect _).bind fun _ _ => .pure (.some (clean_append he hi))
  · refine Makes.advance.bind fun _ _ => (Makes.takeSymbol _).bind fun safe _ => ?_
    exact Makes.typeRef.bind fun type _ => .pure (.some he)
  · exact .pure .none

end Levels

section Operators

variable {inner next : Parser Expr} {bound : Nat} (hinner : Makes P (Clean P) inner)
  (hnext : Makes P (Clean P) next)

theorem chain_makes {extend : Expr → Parser (Option Expr)}
    (h : ∀ e, Clean P e → Makes P (CleanIf P) (extend e)) (n : Nat) {e : Expr} (he : Clean P e) :
    Makes P (Clean P) (chain extend n e) := by
  induction n generalizing e with
  | zero => exact .pure he
  | succ n ih =>
    refine (h e he).bind fun longer hlonger => ?_
    cases longer with
    | none => exact .pure he
    | some longer => exact ih (hlonger longer rfl)

include hnext

theorem unary_makes (n : Nat) : Makes P (Clean P) (unary next n) := by
  induction n with
  | zero => exact hnext
  | succ n ih =>
    refine Makes.peek.bind fun l _ => ?_
    split
    · exact Makes.advance.bind fun _ _ => ih.map fun _ he => he
    · exact hnext

theorem range_makes : Makes P (Clean P) (range next) := by
  have hkind : Makes P (fun _ => True) rangeKind := by
    refine (Makes.takeSymbol _).bind fun dots _ => ?_
    split
    · exact .pure trivial
    · refine (Makes.takeWord _).bind fun isUntil _ => ?_
      split
      · exact .pure trivial
      · refine (Makes.takeWord _).bind fun isDown _ => ?_
        split <;> exact .pure trivial
  refine hnext.bind fun first hfirst => hkind.bind fun kind _ => ?_
  cases kind with
  | none => exact .pure hfirst
  | some kind =>
    refine hnext.bind fun last hlast => (Makes.takeWord _).bind fun stepped _ => ?_
    split
    · exact hnext.bind fun step hstep =>
        .pure (clean_append (clean_append hfirst hlast) hstep)
    · exact .pure (clean_append hfirst hlast)

theorem elvis_makes (n : Nat) : Makes P (Clean P) (elvis next n) := by
  induction n with
  | zero => exact hnext
  | succ n ih =>
    refine hnext.bind fun left hleft => (Makes.takeSymbol _).bind fun taken _ => ?_
    split
    · exact ih.bind fun right hright => .pure (clean_append hleft hright)
    · exact .pure hleft

include hinner

theorem extension_makes (r : Nat) {left : Expr} (hleft : Clean P left) :
    Makes P (CleanIf P) (extension inner bound next r left) := by
  have hright {make : Expr → Expr} (hmake : ∀ right, Clean P right → Clean P (make right)) :
      Makes P (CleanIf P) (do advance; return some (make (← next))) :=
    Makes.advance.bind fun _ _ => hnext.bind fun right hright => .pure (.some (hmake right hright))
  have htype {make : TypeRef → Expr} (hmake : ∀ type, Clean P (make type)) :
      Makes P (CleanIf P) (do advance; return some (make (← typeRef))) :=
    Makes.advance.bind fun _ _ => Makes.typeRef.bind fun type _ => .pure (.some (hmake type))
  have hboth : ∀ right, Clean P right → ∀ source ∈ left.holes ++ right.holes, P source :=
    fun _ => clean_append hleft
  unfold extension
  split
  · exact suffix_makes hinner bound hleft
  · refine Makes.peek.bind fun l _ => ?_
    split
    · exact hright hboth
    · exact hright hboth
    · exact .pure .none
  · refine Makes.peek.bind fun l _ => ?_
    split
    · exact htype fun _ => hleft
    · exact htype fun _ => hleft
    · split
      · exact hright hboth
      · exact .pure .none
  · refine Makes.peek.bind fun l _ => ?_
    split
    · exact hright hboth
    · exact .pure .none

theorem layer_makes (count r : Nat) : Makes P (Clean P) (layer inner bound next count r) := by
  unfold layer
  split
  · exact primary_makes hinner bound
  · exact unary_makes hnext count
  · exact range_makes hnext
  · exact elvis_makes hnext count
  · refine hnext.bind fun condition hcondition => (Makes.takeSymbol _).bind fun taken _ => ?_
    split
    · refine hinner.bind fun yes hyes => (Makes.expect _).bind fun _ _ => ?_
      exact hinner.bind fun no hno => .pure (clean_append (clean_append hcondition hyes) hno)
    · exact .pure hcondition
  · exact hnext.bind fun e he =>
      chain_makes (fun _ => extension_makes hinner hnext _) count he

end Operators

theorem level_makes {inner : Parser Expr} (hinner : Makes P (Clean P) inner)
    (bound count r : Nat) : Makes P (Clean P) (level inner bound count r) := by
  induction r generalizing count with
  | zero => exact primary_makes hinner bound
  | succ r ih => exact layer_makes hinner (ih bound) count (r + 1)

theorem expression_makes (bound : Nat) : Makes P (Clean P) (expression bound) := by
  induction bound with
  | zero => exact .unexpected .expression
  | succ bound ih =>
    rw [expression, ternary_eq]
    exact level_makes ih bound bound 16

theorem whole_makes (bound : Nat) : Makes P (Clean P) (whole bound) := by
  refine (expression_makes bound).bind fun e he => Makes.peek.bind fun l _ => ?_
  split
  · exact .pure he
  · exact .unexpected _

end Parser

/-- The holes in the tree of a text are written in strings of the text. -/
theorem parse_embeds {text : String} {e : Expr} (h : parse text = .ok e) :
    ∀ source ∈ e.holes, Embeds source text.toList := by
  cases htokens : tokenize text with
  | error cause =>
    rw [parse, htokens] at h
    contradiction
  | ok tokens =>
    rw [parse, htokens] at h
    change (Parser.whole tokens.length).run' tokens = .ok e at h
    cases hwhole : Parser.whole tokens.length tokens with
    | error cause =>
      rw [StateT.run', hwhole] at h
      contradiction
    | ok read =>
      rw [StateT.run', hwhole] at h
      obtain rfl := Except.ok.inj h
      exact (Parser.whole_makes _ tokens (tokensFrom_embeds htokens) read.1 read.2 hwhole).1

end Debugger.Syntax
