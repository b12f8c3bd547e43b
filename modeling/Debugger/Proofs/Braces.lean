import Debugger.Proofs.RoundTrip

/-!
Braces in an expression. What a parser takes closes every brace that it opens, provided that the
types do so: their generic arguments are passed without being read.
-/

namespace Debugger.Syntax

namespace Parser

def isBrace : Lexeme → Bool
  | .symbol .lbrace | .symbol .rbrace => true
  | _ => false

/-- How many braces are open behind a lexeme; a brace that closes none has no place. -/
def bracesBehind (depth : Nat) : Lexeme → Option Nat
  | .symbol .lbrace => some (depth + 1)
  | .symbol .rbrace => if depth = 0 then none else some (depth - 1)
  | _ => some depth

theorem bracesBehind_of_isBrace {l : Lexeme} (h : isBrace l = false) (depth : Nat) :
    bracesBehind depth l = some depth := by
  unfold bracesBehind
  split <;> first | contradiction | rfl

/-- How many braces are open behind the tokens. -/
def braces (depth : Nat) (ts : List Token) : Option Nat :=
  ts.foldlM (fun depth t => bracesBehind depth t.lexeme) depth

/-- What reads the type behind an operator that has one there. -/
def typeBehind : Lexeme → Option (Parser TypeRef)
  | .keyword .isType | .keyword .notIsType => some typeRef
  | .keyword .asType => some do
    discard (takeSymbol .question)
    typeRef
  | _ => none

theorem isBrace_of_typeBehind {l : Lexeme} {type : Parser TypeRef}
    (h : typeBehind l = some type) : isBrace l = false := by
  unfold typeBehind at h
  split at h <;> first | contradiction | rfl

/-- Whether the type at the front, if one is read there, closes its braces. -/
def typeCloses (type : Parser TypeRef) (ts : List Token) : Bool :=
  match type ts with
  | .ok (_, rest) => braces 0 (ts.take (ts.length - rest.length)) = some 0
  | .error _ => true

/-- Whether every type behind an operator closes its braces. -/
def typesClose : List Token → Bool
  | [] => true
  | t :: rest => (typeBehind t.lexeme).all (typeCloses · rest) && typesClose rest

theorem typesClose_right {ts us : List Token} (h : typesClose (ts ++ us) = true) :
    typesClose us = true := by
  induction ts with
  | nil => exact h
  | cons t ts ih => exact ih (Bool.and_eq_true_iff.mp h).2

/-- More open braces make no difference to the ones that are opened behind them. -/
theorem braces_add {ts : List Token} {depth after : Nat} (more : Nat)
    (h : braces depth ts = some after) : braces (depth + more) ts = some (after + more) := by
  induction ts generalizing depth with
  | nil =>
    obtain rfl : depth = after := by simpa [braces] using h
    rfl
  | cons t ts ih =>
    rw [braces, List.foldlM_cons] at h ⊢
    obtain ⟨middle, hmiddle, hts⟩ := Option.bind_eq_some_iff.mp h
    have hstep : bracesBehind (depth + more) t.lexeme = some (middle + more) := by
      unfold bracesBehind at hmiddle ⊢
      split at hmiddle
      · obtain rfl := Option.some.inj hmiddle
        rw [Nat.add_right_comm]
      · split at hmiddle
        · contradiction
        · obtain rfl := Option.some.inj hmiddle
          rw [if_neg (by omega)]
          congr 1
          omega
      · obtain rfl := Option.some.inj hmiddle
        rfl
    rw [hstep]
    exact ih hts

/-! ### What a parser leaves -/

/-- Something that holds between the tokens a parser is given and those that it leaves, whatever it
is built of: when nothing is taken, when one token is, unless it is a brace, and from one step to
the next. -/
class Passage (R : List Token → List Token → Prop) : Prop where
  refl (ts : List Token) : R ts ts
  trans {ts us vs : List Token} : R ts us → R us vs → R ts vs
  token {t : Token} (ts : List Token) : isBrace t.lexeme = false → R (t :: ts) ts

/-- At these tokens the parser fails, or the relation holds to what it leaves. -/
def LeavesAt {α : Type} (R : List Token → List Token → Prop) (p : Parser α)
    (ts : List Token) : Prop :=
  ∀ a rest, p ts = .ok (a, rest) → R ts rest

def Leaves {α : Type} (R : List Token → List Token → Prop) (p : Parser α) : Prop :=
  ∀ ts, LeavesAt R p ts

theorem bind_ok {α β : Type} {p : Parser α} {f : α → Parser β} {b : β} {ts rest : List Token}
    (h : (p >>= f) ts = .ok (b, rest)) :
    ∃ a us, p ts = .ok (a, us) ∧ f a us = .ok (b, rest) := by
  simp only [Bind.bind, StateT.bind, Except.bind] at h
  split at h
  · contradiction
  · exact ⟨_, _, ‹_›, h⟩

theorem discard_bind {α β : Type} (p : Parser α) (q : Parser β) :
    (discard p >>= fun _ => q) = p >>= fun _ => q := by
  rw [discard, map_const]
  simp

section Passage

variable {α β : Type} {R : List Token → List Token → Prop} {p : Parser α} {f : α → Parser β}
  {ts : List Token}

/-- What a parser does with the lexeme in front may depend on where it stands. -/
theorem LeavesAt.peek {f : Lexeme → Parser β} (h : LeavesAt R (f (current ts)) ts) :
    LeavesAt R (peek >>= f) ts :=
  h

theorem leaves_unexpected (expected : Expected) : Leaves R (unexpected expected : Parser α) := by
  rintro (_ | ⟨⟨l, offset⟩, ts⟩) a rest h
  · contradiction
  · cases l <;> contradiction

theorem leaves_modifyGet {g : List Token → α × List Token} (h : ∀ ts, R ts (g ts).2) :
    Leaves R (modifyGet g : Parser α) := by
  intro ts a rest hts
  obtain rfl : (g ts).2 = rest := congrArg Prod.snd (Except.ok.inj hts)
  exact h ts

theorem peek_run (f : Lexeme → Parser β) (ts : List Token) :
    (peek >>= f) ts = f (current ts) ts := rfl

theorem replace_run (g : List Token → Except SyntaxError (List Token)) (q : Parser β)
    (ts : List Token) : (do set (← g (← get)); q : Parser β) ts = (g ts >>= q) := by
  change StateT.run (do set (← g (← get)); q : Parser β) ts = _
  simp only [StateT.run_bind, StateT.run_get, pure_bind, StateT.run_set]
  simp only [StateT.run_monadLift, monadLift_self, bind_pure_comp, bind_map_left]
  rfl

variable [Passage R]

theorem LeavesAt.bind (hp : LeavesAt R p ts) (hf : ∀ a, Leaves R (f a)) :
    LeavesAt R (p >>= f) ts := by
  intro b rest h
  obtain ⟨a, us, hpa, hfb⟩ := bind_ok h
  exact Passage.trans (hp a us hpa) (hf a us b rest hfb)

theorem Leaves.bind (hp : Leaves R p) (hf : ∀ a, Leaves R (f a)) :
    Leaves R (p >>= f) :=
  fun ts => (hp ts).bind hf

theorem leaves_pure (a : α) : Leaves R (pure a) := by
  intro ts b rest h
  cases h
  exact Passage.refl ts

theorem Leaves.map (hp : Leaves R p) (g : α → β) : Leaves R (g <$> p) := by
  rw [map_eq_pure_bind]
  exact hp.bind fun a => leaves_pure (g a)

theorem LeavesAt.advance {q : Parser β} {l : Lexeme} (hl : current ts = l)
    (hbrace : isBrace l = false) (hq : Leaves R q) :
    LeavesAt R (advance >>= fun _ => q) ts := by
  refine LeavesAt.bind ?_ fun _ => hq
  intro a rest h
  cases ts with
  | nil =>
    cases h
    exact Passage.refl []
  | cons t ts =>
    obtain ⟨found, offset⟩ := t
    obtain rfl : found = l := hl
    cases found <;> cases h <;>
      first | exact Passage.refl _ | exact Passage.token ts hbrace

theorem leaves_takeSymbol {s : Symbol}
    (hbrace : isBrace (.symbol s) = false) : Leaves R (takeSymbol s) := by
  intro ts
  refine .peek ?_
  split
  · rename_i found hfound
    split
    · rename_i hs
      subst hs
      exact .advance hfound hbrace (leaves_pure true)
    · exact leaves_pure false ts
  · exact leaves_pure false ts

theorem leaves_takeWord (w : String) : Leaves R (takeWord w) := by
  intro ts
  refine .peek ?_
  split
  · rename_i found hfound
    split
    · exact .advance hfound rfl (leaves_pure true)
    · exact leaves_pure false ts
  · exact leaves_pure false ts

theorem leaves_expect {s : Symbol}
    (hbrace : isBrace (.symbol s) = false) : Leaves R (expect s) := by
  refine (leaves_takeSymbol hbrace).bind fun taken => ?_
  cases taken
  · exact leaves_unexpected _
  · exact leaves_pure ()

theorem leaves_ident (expected : Expected) : Leaves R (ident expected) := by
  intro ts
  refine .peek ?_
  split
  · rename_i found hfound
    exact .advance hfound rfl (leaves_pure _)
  · exact leaves_unexpected expected ts

/-- The tokens may be exchanged for those that a function leaves of them. -/
theorem LeavesAt.replace {g : List Token → Except SyntaxError (List Token)}
    (h : ∀ us, g ts = .ok us → R ts us) {q : Parser β} (hq : Leaves R q) :
    LeavesAt R (do set (← g (← get)); q) ts := by
  intro b rest hb
  rw [replace_run] at hb
  cases hg : g ts with
  | error e =>
    rw [hg] at hb
    contradiction
  | ok us =>
    rw [hg] at hb
    exact Passage.trans (h us hg) (hq us b rest hb)

theorem leaves_chain {extend : Expr → Parser (Option Expr)}
    (h : ∀ e, Leaves R (extend e)) (n : Nat) (e : Expr) : Leaves R (chain extend n e) := by
  induction n generalizing e with
  | zero => exact leaves_pure e
  | succ n ih =>
    refine (h e).bind fun longer => ?_
    cases longer with
    | none => exact leaves_pure e
    | some longer => exact ih longer

end Passage

/-! ### Types -/

/-- A parser leaves the end of what it is given. -/
def Behind (ts rest : List Token) : Prop :=
  rest <:+ ts

instance : Passage Behind where
  refl ts := List.suffix_refl ts
  trans h h' := h'.trans h
  token ts _ := List.suffix_cons _ ts

theorem dottedTail_behind (name : String) (ts : List Token) : Behind ts (dottedTail name ts).2 := by
  fun_induction dottedTail name ts with
  | case1 name d i rest segment hd hi ih =>
    exact ih.trans ((List.suffix_cons i rest).trans (List.suffix_cons d (i :: rest)))
  | case2 | case3 => exact List.suffix_refl _

theorem arraySuffixes_behind (name : String) (ts : List Token) :
    Behind ts (arraySuffixes name ts).2 := by
  fun_induction arraySuffixes name ts with
  | case1 name l r rest hl hr ih =>
    exact ih.trans ((List.suffix_cons r rest).trans (List.suffix_cons l (r :: rest)))
  | case2 | case3 => exact List.suffix_refl _

theorem skipArguments_behind {depth : Nat} {ts rest : List Token}
    (h : skipArguments depth ts = .ok rest) : Behind ts rest := by
  fun_induction skipArguments depth ts with
  | case1 | case5 => contradiction
  | case2 _ _ _ _ ih | case4 _ _ _ _ _ ih | case6 _ _ _ _ _ _ ih =>
    exact (ih h).trans (List.suffix_cons _ _)
  | case3 =>
    cases h
    exact List.suffix_cons _ _

theorem typeRef_behind : Leaves Behind typeRef := by
  refine (leaves_ident _).bind fun first => ?_
  refine (leaves_modifyGet (dottedTail_behind first)).bind fun name => ?_
  have hname : Leaves Behind (do
      let name ← modifyGet (arraySuffixes name)
      return TypeRef.mk name (← takeSymbol .question)) :=
    (leaves_modifyGet (arraySuffixes_behind name)).bind fun name =>
      (leaves_takeSymbol rfl).bind fun _ =>
        leaves_pure _
  intro ts
  refine .peek ?_
  split
  · exact .replace (fun _ => skipArguments_behind) hname
  · exact hname ts

theorem typeBehind_behind {l : Lexeme} {type : Parser TypeRef} (h : typeBehind l = some type) :
    Leaves Behind type := by
  unfold typeBehind at h
  split at h
  case h_4 => contradiction
  case h_3 =>
    cases h
    refine Leaves.bind ?_ fun _ => typeRef_behind
    exact (leaves_takeSymbol rfl).map _
  all_goals
    cases h
    exact typeRef_behind

/-! ### Closed braces -/

/-- From these tokens to the rest, where types close their braces, what is between does so too. -/
def Closes (ts rest : List Token) : Prop :=
  ∃ taken, ts = taken ++ rest ∧ (typesClose ts = true → braces 0 taken = some 0)

theorem braces_append {ts us : List Token} {depth middle : Nat}
    (h : braces depth ts = some middle) : braces depth (ts ++ us) = braces middle us := by
  rw [braces, List.foldlM_append]
  exact congrArg (· >>= _) h

instance : Passage Closes where
  refl ts := ⟨[], rfl, fun _ => rfl⟩
  trans := by
    rintro _ _ vs ⟨front, rfl, hfront⟩ ⟨back, rfl, hback⟩
    refine ⟨front ++ back, (List.append_assoc front back vs).symm, fun h => ?_⟩
    rw [braces_append (hfront h)]
    exact hback (typesClose_right h)
  token {t} ts h := by
    refine ⟨[t], rfl, fun _ => ?_⟩
    rw [braces, List.foldlM_cons, bracesBehind_of_isBrace h]
    rfl

/-- What stands between two braces may be anything that closes its own. -/
theorem closes_braces {l r : Token} {ts rest : List Token} (hl : l.lexeme = .symbol .lbrace)
    (hr : r.lexeme = .symbol .rbrace) (h : Closes ts (r :: rest)) : Closes (l :: ts) rest := by
  obtain ⟨taken, rfl, htaken⟩ := h
  refine ⟨l :: (taken ++ [r]), by simp, fun htypes => ?_⟩
  have hinside := braces_add 1 (htaken (Bool.and_eq_true_iff.mp htypes).2)
  rw [braces, List.foldlM_cons, hl]
  change braces 1 (taken ++ [r]) = some 0
  rw [braces_append hinside, braces, List.foldlM_cons, hr]
  rfl

/-- An operator and the type behind it. -/
theorem closes_type {t : Token} {ts rest : List Token} {type : Parser TypeRef} {ref : TypeRef}
    (htype : typeBehind t.lexeme = some type) (hread : type ts = .ok (ref, rest)) :
    Closes (t :: ts) rest := by
  obtain ⟨taken, rfl⟩ := typeBehind_behind htype ts ref rest hread
  refine ⟨t :: taken, rfl, fun htypes => ?_⟩
  have hcloses : typeCloses type (taken ++ rest) = true := by
    rw [typesClose, htype] at htypes
    exact (Bool.and_eq_true_iff.mp htypes).1
  rw [typeCloses, hread] at hcloses
  simp only [List.length_append, Nat.add_sub_cancel, List.take_left',
    decide_eq_true_eq] at hcloses
  rw [braces, List.foldlM_cons, bracesBehind_of_isBrace (isBrace_of_typeBehind htype)]
  exact hcloses

theorem expect_ok {s : Symbol} {ts rest : List Token} (h : expect s ts = .ok ((), rest)) :
    ∃ t, ts = t :: rest ∧ t.lexeme = .symbol s := by
  obtain ⟨taken, us, htaken, h⟩ := bind_ok h
  cases taken with
  | false => exact (leaves_unexpected (R := fun _ _ => False) _ us _ _ h).elim
  | true =>
    cases h
    cases ts with
    | nil => contradiction
    | cons t ts =>
      obtain ⟨l, vs, hl, htaken⟩ := bind_ok htaken
      obtain ⟨hcurrent, rfl⟩ : t.lexeme = l ∧ t :: ts = vs := Prod.mk.inj (Except.ok.inj hl)
      obtain ⟨_, offset⟩ := t
      split at htaken
      · obtain rfl := hcurrent
        split at htaken
        · rename_i hs
          cases htaken
          exact ⟨_, rfl, congrArg Lexeme.symbol hs⟩
        · cases htaken
      · cases htaken

theorem lambdaParams_closes {ts rest : List Token} {names : List String}
    (h : lambdaParams ts = some (names, rest)) : Closes ts rest := by
  have htoken {t : Token} {l : Lexeme} (ht : t.lexeme = l) (hl : isBrace l = false)
      (ts : List Token) : Closes (t :: ts) ts :=
    Passage.token ts (ht ▸ hl)
  fun_induction lambdaParams ts generalizing names with
  | case1 i s after name hs hi =>
    cases h
    exact Passage.trans (htoken hi rfl _) (htoken hs rfl _)
  | case2 i s after name hs hi ih =>
    obtain ⟨⟨more, behind⟩, hmore, he⟩ := Option.map_eq_some_iff.mp h
    cases he
    exact Passage.trans (htoken hi rfl _)
      (Passage.trans (htoken hs rfl _) (ih hmore))
  | case3 | case4 => contradiction

/-- Passing an operator, and then the type behind it. -/
theorem operator_closes {β : Type} {ts : List Token} {l : Lexeme} {p : Parser β}
    (hl : current ts = l) {type : Parser TypeRef} (htype : typeBehind l = some type)
    (hp : ∀ us b rest, p us = .ok (b, rest) → ∃ ref, type us = .ok (ref, rest)) :
    LeavesAt Closes (advance >>= fun _ => p) ts := by
  cases ts with
  | nil =>
    subst hl
    contradiction
  | cons t ts =>
    obtain ⟨found, offset⟩ := t
    obtain rfl : found = l := hl
    intro b rest h
    obtain ⟨⟨⟩, us, hadvance, hread⟩ := bind_ok h
    obtain rfl : us = ts := by
      cases found <;> cases hadvance <;> first | rfl | contradiction
    obtain ⟨ref, href⟩ := hp us b rest hread
    exact closes_type htype href

theorem isBrace_of_unaryOp {l : Lexeme} {op : UnaryOp} (h : unaryOp l = some op) :
    isBrace l = false := by
  unfold unaryOp at h
  split at h <;> first | rfl | contradiction

theorem isBrace_of_comparisons {l : Lexeme} {op : BinaryOp} (h : comparisons l = some op) :
    isBrace l = false := by
  unfold comparisons at h
  split at h <;> first | rfl | contradiction

/-- A brace has no rank of an operator. -/
theorem isBrace_of_binaryLevel {r : Nat} {l : Lexeme} {op : BinaryOp}
    (h : binaryLevel r l = some op) : isBrace l = false := by
  have hrank := rank_of_binaryLevel h
  unfold isBrace
  split
  · cases hrank
    contradiction
  · contradiction
  · rfl

section Levels

variable {inner next : Parser Expr} {bound : Nat}

theorem lambda_closes (hinner : Leaves Closes inner) : Leaves Closes (lambda inner) := by
  have hbody (params : List String) {ts rest : List Token} {e : Expr}
      (h : (do let body ← inner; expect .rbrace; return .lambda params body : Parser Expr) ts =
        .ok (e, rest)) : ∃ r, r.lexeme = .symbol .rbrace ∧ Closes ts (r :: rest) := by
    obtain ⟨body, us, hread, h⟩ := bind_ok h
    obtain ⟨⟨⟩, vs, hclose, h⟩ := bind_ok h
    cases h
    obtain ⟨r, rfl, hr⟩ := expect_ok hclose
    exact ⟨r, hr, hinner ts body _ hread⟩
  intro ts e rest hrun
  obtain ⟨⟨⟩, us, hopen, hinside⟩ := bind_ok hrun
  obtain ⟨l, rfl, hl⟩ := expect_ok hopen
  obtain ⟨_, _, hget, h⟩ := bind_ok hinside
  cases hget
  obtain ⟨vs, params, hparams, h⟩ : ∃ vs params, Closes us vs ∧
      (do let body ← inner; expect .rbrace; return .lambda params body : Parser Expr) vs =
        .ok (e, rest) := by
    split at h
    · rename_i names vs hnames
      exact ⟨vs, names, lambdaParams_closes hnames, h⟩
    · obtain ⟨⟨⟩, vs, harrow, h⟩ := bind_ok h
      exact ⟨vs, [], (leaves_takeSymbol rfl).map _ us _ _ harrow, h⟩
  obtain ⟨r, hr, hbetween⟩ := hbody params h
  exact closes_braces hl hr (Passage.trans hparams hbetween)

variable (hinner : Leaves Closes inner)

include hinner

theorem arguments_closes (n : Nat) : Leaves Closes (arguments inner n) := by
  induction n with
  | zero => exact leaves_unexpected .expression
  | succ n ih =>
    refine (leaves_takeSymbol rfl).bind fun star => ?_
    have hmore (arg : Expr) : Leaves Closes (do
        if ← takeSymbol .comma then
          return arg :: (← arguments inner n)
        expect .rparen
        return [arg]) := by
      refine (leaves_takeSymbol rfl).bind fun comma => ?_
      split
      · exact ih.bind fun _ => leaves_pure _
      · exact (leaves_expect rfl).bind fun _ => leaves_pure _
    split
    · exact (hinner.map .spread).bind hmore
    · exact hinner.bind hmore

theorem callArguments_closes (bound : Nat) : Leaves Closes (callArguments inner bound) := by
  have hlambda (args : List Expr) : Leaves Closes (lambdaBehind inner args) := by
    intro ts
    refine .peek ?_
    split
    · exact (lambda_closes hinner).bind (fun _ => leaves_pure _) ts
    · exact leaves_pure args ts
  refine (leaves_takeSymbol rfl).bind fun opened => ?_
  split
  · refine (leaves_takeSymbol rfl).bind fun closed => ?_
    split
    · exact hlambda []
    · exact (arguments_closes hinner bound).bind hlambda
  · exact hlambda []

theorem conditional_closes : Leaves Closes (conditional inner) := by
  refine (leaves_expect rfl).bind fun _ => hinner.bind fun condition => ?_
  refine (leaves_expect rfl).bind fun _ => hinner.bind fun yes => ?_
  have hno : Leaves Closes (do return Expr.conditional condition yes (← inner)) :=
    hinner.bind fun _ => leaves_pure _
  intro ts
  refine .peek ?_
  split
  · exact .advance ‹_› rfl hno
  · exact (leaves_unexpected _).bind (fun _ => hno) ts

theorem named_closes (bound : Nat) (name : String) : Leaves Closes (named inner bound name) := by
  intro ts
  refine .peek ?_
  split
  · exact (callArguments_closes hinner bound).bind (fun _ => leaves_pure _) ts
  · exact leaves_pure _ ts

theorem primary_closes (bound : Nat) : Leaves Closes (primary inner bound) := by
  intro ts
  refine .peek ?_
  split
  · exact .advance ‹_› rfl (leaves_pure _)
  · exact .advance ‹_› rfl (leaves_pure _)
  · exact .advance ‹_› rfl (leaves_pure _)
  · exact .advance ‹_› rfl (conditional_closes hinner)
  · exact .advance ‹_› rfl (named_closes hinner bound _)
  · exact .advance ‹_› rfl
      (hinner.bind fun _ => (leaves_expect rfl).bind fun _ => leaves_pure _)
  · exact lambda_closes hinner ts
  · exact leaves_unexpected _ ts

theorem memberOrCall_closes (bound : Nat) (target : Expr) (safe : Bool) :
    Leaves Closes (memberOrCall inner bound target safe) := by
  refine (leaves_ident _).bind fun name => ?_
  intro ts
  refine .peek ?_
  split
  · exact (callArguments_closes hinner bound).bind (fun _ => leaves_pure _) ts
  · exact (callArguments_closes hinner bound).bind (fun _ => leaves_pure _) ts
  · exact leaves_pure _ ts

theorem suffix_closes (bound : Nat) (e : Expr) : Leaves Closes (suffix inner bound e) := by
  intro ts
  refine .peek ?_
  split
  · exact .advance ‹_› rfl ((memberOrCall_closes hinner bound e false).map some)
  · exact .advance ‹_› rfl ((memberOrCall_closes hinner bound e true).map some)
  · exact .advance ‹_› rfl
      (hinner.bind fun _ => (leaves_expect rfl).bind fun _ => leaves_pure _)
  · refine operator_closes ‹_› rfl fun us b rest h => ?_
    obtain ⟨safe, vs, hsafe, h⟩ := bind_ok h
    obtain ⟨ref, ws, href, h⟩ := bind_ok h
    cases h
    refine ⟨ref, ?_⟩
    rw [discard_bind]
    simp only [Bind.bind, StateT.bind, hsafe, Except.bind]
    exact href
  · exact leaves_pure none ts

end Levels

section Operators

variable {inner next : Parser Expr} {bound : Nat} (hinner : Leaves Closes inner)
  (hnext : Leaves Closes next)

include hnext

theorem unary_closes (n : Nat) : Leaves Closes (unary next n) := by
  induction n with
  | zero => exact hnext
  | succ n ih =>
    intro ts
    refine .peek ?_
    split
    · rename_i op hop
      exact .advance rfl (isBrace_of_unaryOp hop) (ih.map _)
    · exact hnext ts

theorem range_closes : Leaves Closes (range next) := by
  refine hnext.bind fun first => ?_
  refine Leaves.bind ?_ fun kind => ?_
  · refine (leaves_takeSymbol rfl).bind fun dots => ?_
    split
    · exact leaves_pure _
    · refine (leaves_takeWord _).bind fun isUntil => ?_
      split
      · exact leaves_pure _
      · refine (leaves_takeWord _).bind fun isDown => ?_
        split <;> exact leaves_pure _
  · cases kind with
    | none => exact leaves_pure first
    | some kind =>
      refine hnext.bind fun last => (leaves_takeWord _).bind fun stepped => ?_
      split
      · exact hnext.bind fun _ => leaves_pure _
      · exact leaves_pure _

theorem elvis_closes (n : Nat) : Leaves Closes (elvis next n) := by
  induction n with
  | zero => exact hnext
  | succ n ih =>
    refine hnext.bind fun left => (leaves_takeSymbol rfl).bind fun taken => ?_
    split
    · exact ih.bind fun _ => leaves_pure _
    · exact leaves_pure left

include hinner

theorem extension_closes (r : Nat) (left : Expr) :
    Leaves Closes (extension inner bound next r left) := by
  unfold extension
  split
  · exact suffix_closes hinner bound left
  · intro ts
    refine .peek ?_
    split
    · exact .advance ‹_› rfl (hnext.bind fun _ => leaves_pure _)
    · exact .advance ‹_› rfl (hnext.bind fun _ => leaves_pure _)
    · exact leaves_pure none ts
  · intro ts
    refine .peek ?_
    split
    · refine operator_closes ‹_› rfl fun us b rest h => ?_
      obtain ⟨ref, vs, href, h⟩ := bind_ok h
      cases h
      exact ⟨ref, href⟩
    · refine operator_closes ‹_› rfl fun us b rest h => ?_
      obtain ⟨ref, vs, href, h⟩ := bind_ok h
      cases h
      exact ⟨ref, href⟩
    · split
      · rename_i op hop
        exact .advance rfl (isBrace_of_comparisons hop) (hnext.bind fun _ => leaves_pure _)
      · exact leaves_pure none ts
  · intro ts
    refine .peek ?_
    split
    · rename_i op hop
      exact .advance rfl (isBrace_of_binaryLevel hop) (hnext.bind fun _ => leaves_pure _)
    · exact leaves_pure none ts

theorem layer_closes (count r : Nat) : Leaves Closes (layer inner bound next count r) := by
  unfold layer
  split
  · exact primary_closes hinner bound
  · exact unary_closes hnext count
  · exact range_closes hnext
  · exact elvis_closes hnext count
  · refine hnext.bind fun condition => (leaves_takeSymbol rfl).bind fun taken => ?_
    split
    · exact hinner.bind fun _ => (leaves_expect rfl).bind fun _ =>
        hinner.bind fun _ => leaves_pure _
    · exact leaves_pure condition
  · exact hnext.bind (leaves_chain (extension_closes hinner hnext _) count)

end Operators

theorem level_closes {inner : Parser Expr} (hinner : Leaves Closes inner) (bound count r : Nat) :
    Leaves Closes (level inner bound count r) := by
  induction r generalizing count with
  | zero => exact primary_closes hinner bound
  | succ r ih => exact layer_closes hinner (ih bound) count (r + 1)

theorem expression_closes (bound : Nat) : Leaves Closes (expression bound) := by
  induction bound with
  | zero => exact leaves_unexpected .expression
  | succ bound ih =>
    rw [expression, ternary_eq]
    exact level_closes ih bound bound 16

end Parser

open Debugger.Syntax.Parser

/-- An expression closes its braces if its types do: up to the end, so many are closed as are
opened. -/
theorem parseTokens_closes {ts : List Token} {e : Expr} (h : parseTokens ts = .ok e)
    (htypes : typesClose ts = true) :
    ∃ taken rest, ts = taken ++ rest ∧ current rest = .eof ∧ braces 0 taken = some 0 := by
  rw [parseTokens, StateT.run'] at h
  obtain ⟨⟨e', rest⟩, hwhole, -⟩ : ∃ read, whole ts.length ts = .ok read ∧ read.1 = e := by
    cases hread : whole ts.length ts with
    | error cause =>
      rw [hread] at h
      contradiction
    | ok read =>
      rw [hread] at h
      exact ⟨read, rfl, Except.ok.inj h⟩
  obtain ⟨e'', us, hread, hrest⟩ := bind_ok hwhole
  obtain ⟨l, vs, hl, hrest⟩ := bind_ok hrest
  obtain ⟨hcurrent, rfl⟩ : current us = l ∧ us = vs := Prod.mk.inj (Except.ok.inj hl)
  have hend : current us = .eof := by
    split at hrest
    · exact hcurrent
    · exact (leaves_unexpected (R := fun _ _ => False) _ us _ _ hrest).elim
  obtain ⟨taken, rfl, htaken⟩ := expression_closes ts.length ts e'' us hread
  exact ⟨taken, us, rfl, hend, htaken htypes⟩

end Debugger.Syntax
