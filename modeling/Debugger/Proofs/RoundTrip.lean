import Debugger.Proofs.Lexing
import Debugger.Proofs.Parsing

/-!
The parser undoes the printer: a plain tree is read back from its text.
-/

open Debugger.Syntax.Parser

namespace Debugger.Syntax

/-! ### First lexemes -/

/-- Lexemes that a tree of the rank can begin with: those of a primary expression, or a sign if the
rank is that of signs or looser. -/
inductive Starts (r : Nat) : Lexeme → Prop
  | literal (v : Literal) : Starts r (.literal v)
  | ident (n : String) : Starts r (.ident n)
  | this : Starts r (.keyword .this)
  | lparen : Starts r (.symbol .lparen)
  | sign (hr : 2 ≤ r) (op : UnaryOp) : Starts r op.lexeme

theorem Starts.mono {r k : Nat} {l : Lexeme} (h : Starts r l) (hk : r ≤ k) : Starts k l := by
  cases h with
  | literal v => exact .literal v
  | ident n => exact .ident n
  | this => exact .this
  | lparen => exact .lparen
  | sign hr op => exact .sign (Nat.le_trans hr hk) op

theorem Starts.unaryOp_eq_none {r : Nat} {l : Lexeme} (h : Starts r l) (hr : r ≤ 1) :
    unaryOp l = none := by
  cases h with
  | literal | ident | this | lparen => rfl
  | sign hr' => omega

/-- No tree begins like a spread argument or like the end of the arguments. -/
theorem Starts.ne {r : Nat} {l : Lexeme} (h : Starts r l) :
    l ≠ .symbol .star ∧ l ≠ .symbol .rparen := by
  cases h with
  | literal | ident | this | lparen => exact ⟨nofun, nofun⟩
  | sign hr op => cases op <;> exact ⟨nofun, nofun⟩

/-- The lexemes begin with one that starts a tree of the rank. -/
def Opens (r : Nat) (ls : List Lexeme) : Prop :=
  ∃ l rest, ls = l :: rest ∧ Starts r l

theorem Opens.length_pos {r : Nat} {ls : List Lexeme} (h : Opens r ls) : 0 < ls.length := by
  obtain ⟨l, rest, rfl, -⟩ := h
  exact Nat.succ_pos _

theorem Opens.append {r k : Nat} {ls : List Lexeme} (h : Opens r ls) (hk : r ≤ k)
    (more : List Lexeme) : Opens k (ls ++ more) := by
  obtain ⟨l, rest, rfl, hl⟩ := h
  exact ⟨l, rest ++ more, rfl, hl.mono hk⟩

theorem Opens.within {r : Nat} {ls : List Lexeme} (h : Opens r ls) (limit : Nat) :
    Opens limit (within limit r ls) := by
  unfold Syntax.within
  split
  · obtain ⟨l, rest, rfl, hl⟩ := h
    exact ⟨l, rest, rfl, hl.mono ‹_›⟩
  · exact ⟨_, _, rfl, .lparen⟩

theorem BinaryOp.rank_bounds (op : BinaryOp) : 3 ≤ op.rank ∧ op.rank ≤ 14 := by
  cases op <;> decide

theorem Expr.rank_le (e : Expr) : e.rank ≤ 16 := by
  cases e with
  | binary op => exact Nat.le_trans op.rank_bounds.2 (by decide)
  | call receiver => cases receiver <;> simp [rank]
  | _ => simp [rank]

namespace Expr.Plain

theorem opens (words : Bool) {e : Expr} (h : e.Plain) : Opens e.rank (e.lexemes words) := by
  induction h with
  | int | long | bool | null => exact ⟨_, _, rfl, .literal _⟩
  | this => exact ⟨_, _, rfl, .this⟩
  | name | call => exact ⟨_, _, rfl, .ident _⟩
  | unary op => exact ⟨_, _, rfl, .sign (Nat.le_refl 2) op⟩
  | binary op left right hl => exact (hl.within op.rank).append (Nat.le_refl _) _
  | elvis left right hl => exact (hl.within 14).append (by decide : 14 ≤ 15) _
  | conditional condition yes no hc => exact (hc.within 15).append (by decide : 15 ≤ 16) _
  | contains negated element collection he => exact (he.within 7).append (Nat.le_refl _) _
  | range kind first last ha => exact (ha.within 5).append (by decide : 5 ≤ 6) _
  | stepped kind first last step ha => exact (ha.within 5).append (by decide : 5 ≤ 6) _
  | index target place he => exact (he.within 1).append (Nat.le_refl _) _
  | member safe target named he => exact (he.within 1).append (Nat.le_refl _) _
  | callOn safe receiver named lower passed he => exact (he.within 1).append (Nat.le_refl _) _

end Expr.Plain

/-! ### Reading trees back -/

/-- The level of a rank where the expressions inside others have fewer than `bound` tokens. -/
abbrev rung (bound count : Nat) (r : Nat) : Parser Expr :=
  level (expression bound) bound count r

/-- In parentheses an expression may stand at any level. -/
theorem reads_parens {bound r : Nat} {ls rest : List Lexeme} {e : Expr}
    (h : Reads (expression bound) (ls ++ .symbol .rparen :: rest) e (.symbol .rparen :: rest))
    (hends : Ends r rest) (count : Nat) :
    Reads (rung bound count r) (.symbol .lparen :: (ls ++ .symbol .rparen :: rest)) e rest := by
  have hprimary : Reads (primary (expression bound) bound)
      (.symbol .lparen :: (ls ++ .symbol .rparen :: rest)) e rest :=
    (reads_peek _).bind ((reads_advance (.symbol .lparen) _ nofun).bind
      (h.bind ((reads_expect .rparen rest).bind (.pure e rest))))
  have hown (count : Nat) (_ : 0 ≤ count) : Reads (level (expression bound) bound count 0)
      (.symbol .lparen :: (ls ++ .symbol .rparen :: rest)) e rest := hprimary
  exact reads_level (Nat.zero_le r) hown (Nat.zero_le bound) hends (fun _ => rfl) count
    (Nat.zero_le count)

/-- The tree is read off the lexemes at the level of the rank. -/
def ReadAt (r : Nat) (e : Expr) (ls : List Lexeme) : Prop :=
  ∀ {bound count rest}, ls.length ≤ bound → ls.length ≤ count → Ends r rest →
    Reads (rung bound count r) (ls ++ rest) e rest

/-- At the next looser level the tree is read off the lexemes as the beginning of a chain, which
goes on with what is left of its operators. -/
def LeadsAt (r : Nat) (e : Expr) (ls : List Lexeme) : Prop :=
  ∃ used < ls.length, ∀ {bound count rest a final}, ls.length ≤ bound → Ends r rest →
    Reads (chain (extension (expression bound) bound (rung bound bound r) (r + 1)) count e)
      rest a final →
    Reads (rung bound (count + used) (r + 1)) (ls ++ rest) a final

theorem ReadAt.leads {r : Nat} (hr : Chained (r + 1)) {e : Expr} {ls : List Lexeme}
    (h : ReadAt r e ls) (hpos : 0 < ls.length) : LeadsAt r e ls := by
  refine ⟨0, hpos, fun hbound hends hchain => ?_⟩
  rw [rung, level_chained _ _ _ hr]
  exact (h hbound hbound hends).bind hchain

theorem LeadsAt.read {r : Nat} {e : Expr} {ls : List Lexeme} (h : LeadsAt r e ls) :
    ReadAt (r + 1) e ls := by
  obtain ⟨used, hused, hlead⟩ := h
  intro bound count rest hbound hcount hends
  have hnone : Reads (extension (expression bound) bound (rung bound bound r) (r + 1) e) rest none
      rest := reads_noExtension hends e
  have hend := reads_chain_end hnone (count - used)
  have hread := hlead hbound (hends.mono (Nat.le_succ r)) hend
  rwa [Nat.sub_add_cancel (by omega)] at hread

/-- One more operator, with what belongs to it, makes the chain longer. -/
theorem LeadsAt.extend {r : Nat} {e longer : Expr} {ls tail : List Lexeme} (h : LeadsAt r e ls)
    (hpos : 0 < tail.length) (hbehind : ∀ rest, Ends r (tail ++ rest))
    (hstep : ∀ {bound rest}, (ls ++ tail).length ≤ bound → Ends r rest →
      Reads (extension (expression bound) bound (rung bound bound r) (r + 1) e) (tail ++ rest)
        (some longer) rest) : LeadsAt r longer (ls ++ tail) := by
  obtain ⟨used, hused, hlead⟩ := h
  have hlength : (ls ++ tail).length = ls.length + tail.length := List.length_append
  refine ⟨used + 1, by omega, fun {bound count rest a final} hbound hends hchain => ?_⟩
  have hlonger := reads_chain_step (hstep hbound hends) hchain
  have hread := hlead (by omega) (hbehind rest) hlonger
  rw [List.append_assoc]
  rwa [show count + 1 + used = count + (used + 1) by omega] at hread

/-- A tree is read off its lexemes at its own level, and begins a chain there if the level has
chains. -/
structure Expr.Parsed (words : Bool) (e : Expr) : Prop where
  opens : Opens e.rank (e.lexemes words)
  read : ReadAt e.rank e (e.lexemes words)
  leads : ∀ {r}, e.rank = r + 1 → Chained (r + 1) → LeadsAt r e (e.lexemes words)

namespace Expr.Parsed

variable {words : Bool} {e : Expr} (h : e.Parsed words)

include h

theorem front_eq (rest : List Lexeme) : Starts e.rank (front (e.lexemes words ++ rest)) := by
  obtain ⟨l, more, hl, hstarts⟩ := h.opens
  rw [hl]
  exact hstarts

theorem readAt {r : Nat} (hr : e.rank ≤ r) : ReadAt r e (e.lexemes words) := by
  intro bound count rest hbound hcount hends
  refine reads_level hr (fun count hcount => h.read hbound hcount (hends.mono hr)) hbound hends ?_
    count hcount
  exact (h.front_eq rest).unaryOp_eq_none

/-- Inside other expressions every tree may stand. -/
theorem inner {bound : Nat} (hbound : (e.lexemes words).length < bound) {rest : List Lexeme}
    (hends : Ends 16 rest) : Reads (expression bound) (e.lexemes words ++ rest) e rest := by
  cases bound with
  | zero => contradiction
  | succ bound =>
    have hlength := Nat.le_of_lt_succ hbound
    rw [expression, ternary_eq]
    exact h.readAt e.rank_le hlength hlength hends

/-- With parentheses where they are needed, a tree is read at any level. -/
theorem within (limit : Nat) : ReadAt limit e (within limit e.rank (e.lexemes words)) := by
  unfold Syntax.within
  split
  · exact h.readAt ‹_›
  · intro bound count rest hbound hcount hends
    simp only [List.length_cons, List.length_append, List.length_nil] at hbound
    have hinner : Reads (expression bound) (e.lexemes words ++ .symbol .rparen :: rest) e
        (.symbol .rparen :: rest) := h.inner (by omega) (.of_none rfl 16 rest)
    rw [List.cons_append, List.append_assoc]
    exact reads_parens hinner hends count

theorem within_leads {r : Nat} (hr : Chained (r + 1)) :
    LeadsAt r e (Syntax.within (r + 1) e.rank (e.lexemes words)) := by
  by_cases hrank : e.rank = r + 1
  · have hleads := h.leads hrank hr
    rwa [Syntax.within, if_pos (Nat.le_of_eq hrank)]
  · -- A tree of another rank has parentheses here exactly where it has them one level up.
    have hsame : Syntax.within (r + 1) e.rank (e.lexemes words) =
        Syntax.within r e.rank (e.lexemes words) := by
      unfold Syntax.within
      split <;> split
      · rfl
      · omega
      · omega
      · rfl
    rw [hsame]
    exact ReadAt.leads hr (h.within r) (h.opens.within r).length_pos

omit h

theorem of_read (h : e.Plain) (hnone : ¬ Chained e.rank)
    (hread : ReadAt e.rank e (e.lexemes words)) : e.Parsed words :=
  ⟨h.opens words, hread, fun hr hchained => absurd (hr ▸ hchained) hnone⟩

theorem of_leads {r : Nat} (h : e.Plain) (hr : e.rank = r + 1)
    (hleads : LeadsAt r e (e.lexemes words)) : e.Parsed words := by
  refine ⟨h.opens words, ?_, fun {k} hk _ => ?_⟩
  · rw [hr]
    exact hleads.read
  · obtain rfl : r = k := Nat.succ.inj (hr.symm.trans hk)
    exact hleads

end Expr.Parsed

/-! ### Primary expressions -/

theorem readAt_literal (v : Literal) : ReadAt 0 (.literal v) [.literal v] := fun _ _ _ =>
  (reads_peek _).bind ((reads_advance (.literal v) _ nofun).bind (.pure (Expr.literal v) _))

theorem readAt_this : ReadAt 0 .this [.keyword .this] := fun _ _ _ =>
  (reads_peek _).bind ((reads_advance (.keyword .this) _ nofun).bind (.pure Expr.this _))

theorem readAt_name (n : String) : ReadAt 0 (.name n) [.ident n] := by
  intro bound count rest _ _ hends
  refine (reads_peek _).bind ((reads_advance (.ident n) rest nofun).bind ?_)
  refine (reads_peek rest).bind ?_
  split
  · exact absurd ‹_› (hends.front_ne rfl)
  · exact .pure (Expr.name n) rest

/-! ### Arguments -/

/-- How a call is read on once its arguments in parentheses are. -/
def lambdaBehind (inner : Parser Expr) (args : List Expr) : Parser (List Expr) := do
  if let .symbol .lbrace ← peek then
    return args ++ [← lambda inner]
  return args

section Arguments

variable {words : Bool} {inner : Parser Expr} {args : List Expr} {bound : Nat}
  (hparsed : ∀ a ∈ args, a.Parsed words)
  (hinner : ∀ a ∈ args, ∀ rest, Ends 16 rest → Reads inner (a.lexemes words ++ rest) a rest)

include hparsed hinner

theorem reads_arguments (hne : args ≠ []) (hbound : args.length ≤ bound) (rest : List Lexeme) :
    Reads (arguments inner bound) (argumentLexemes words args ++ .symbol .rparen :: rest) args
      rest := by
  induction args generalizing bound with
  | nil => contradiction
  | cons a more ih =>
    obtain ⟨ha, hmore⟩ := List.forall_mem_cons.mp hparsed
    obtain ⟨hinnera, hinnermore⟩ := List.forall_mem_cons.mp hinner
    cases bound with
    | zero => contradiction
    | succ bound =>
      have hstar (ls : List Lexeme) : Reads (takeSymbol .star) (a.lexemes words ++ ls) false
          (a.lexemes words ++ ls) := reads_noSymbol .star _ (ha.front_eq ls).ne.1
      cases more with
      | nil =>
        refine (hstar _).bind ((hinnera _ (.of_none rfl 16 rest)).bind ?_)
        refine (reads_noSymbol .comma (.symbol .rparen :: rest) nofun).bind ?_
        exact (reads_expect .rparen rest).bind (.pure [a] rest)
      | cons b more =>
        have htail := ih hmore hinnermore (List.cons_ne_nil b more) (Nat.le_of_succ_le_succ hbound)
        rw [argumentLexemes_cons, List.append_assoc, List.cons_append]
        refine (hstar _).bind ((hinnera _ (.of_none rfl 16 _)).bind ?_)
        refine (reads_symbol .comma _).bind ?_
        exact htail.bind (.pure (a :: b :: more) rest)

theorem reads_callArguments (hbound : args.length ≤ bound) {rest : List Lexeme}
    (hends : Ends 0 rest) :
    Reads (callArguments inner bound)
      (.symbol .lparen :: (argumentLexemes words args ++ .symbol .rparen :: rest)) args rest := by
  have hlambda : Reads (lambdaBehind inner args) rest args rest := by
    refine (reads_peek rest).bind ?_
    split
    · exact absurd ‹_› (hends.front_ne rfl)
    · exact .pure args rest
  cases args with
  | nil =>
    refine (reads_symbol .lparen _).bind ((reads_symbol .rparen rest).bind ?_)
    exact (Reads.pure [] rest).bind hlambda
  | cons a more =>
    have hargs := reads_arguments hparsed hinner (List.cons_ne_nil a more) hbound rest
    obtain ⟨ls, hls⟩ : ∃ ls, argumentLexemes words (a :: more) ++ .symbol .rparen :: rest =
        a.lexemes words ++ ls := by
      cases more with
      | nil => exact ⟨_, rfl⟩
      | cons b more => exact ⟨_, List.append_assoc ..⟩
    have hsome : front (argumentLexemes words (a :: more) ++ .symbol .rparen :: rest) ≠
        .symbol .rparen := by
      rw [hls]
      exact ((hparsed a List.mem_cons_self).front_eq ls).ne.2
    refine (reads_symbol .lparen _).bind ((reads_noSymbol _ _ hsome).bind ?_)
    exact hargs.bind hlambda

omit hparsed hinner

theorem length_argument {a : Expr} (ha : a ∈ args) :
    (a.lexemes words).length ≤ (argumentLexemes words args).length := by
  induction args with
  | nil => contradiction
  | cons b more ih =>
    cases more with
    | nil =>
      obtain rfl := List.mem_singleton.mp ha
      exact Nat.le_refl _
    | cons c more =>
      rw [argumentLexemes_cons, List.length_append, List.length_cons]
      rcases List.mem_cons.mp ha with rfl | ha
      · exact Nat.le_add_right ..
      · have := ih ha
        omega

theorem length_arguments (hpos : ∀ a ∈ args, 0 < (a.lexemes words).length) :
    args.length ≤ (argumentLexemes words args).length := by
  induction args with
  | nil => exact Nat.zero_le _
  | cons a more ih =>
    obtain ⟨ha, hmore⟩ := List.forall_mem_cons.mp hpos
    cases more with
    | nil => exact ha
    | cons b more =>
      have := ih hmore
      rw [argumentLexemes_cons, List.length_append]
      simp only [List.length_cons] at this ⊢
      omega

/-- Arguments in parentheses, each shorter than the whole. -/
theorem reads_call (hparsed : ∀ a ∈ args, a.Parsed words)
    (hbound : (argumentLexemes words args).length < bound) {rest : List Lexeme}
    (hends : Ends 0 rest) :
    Reads (callArguments (expression bound) bound)
      (.symbol .lparen :: (argumentLexemes words args ++ .symbol .rparen :: rest)) args rest := by
  refine reads_callArguments hparsed (fun a ha ls hls => ?_) ?_ hends
  · exact (hparsed a ha).inner (Nat.lt_of_le_of_lt (length_argument ha) hbound) hls
  · have := length_arguments fun a ha => (hparsed a ha).opens.length_pos
    omega

end Arguments

theorem readAt_call {words : Bool} {n : String} {args : List Expr}
    (hlower : Text.startsUppercase n = false) (hparsed : ∀ a ∈ args, a.Parsed words) :
    ReadAt 0 (.call none n args false) ((Expr.call none n args false).lexemes words) := by
  intro bound count rest hbound _ hends
  simp only [Expr.lexemes, List.length_cons, List.length_append, List.length_nil] at hbound
  have hargs := reads_call hparsed (show _ < bound by omega) hends
  simp only [Expr.lexemes, List.cons_append, List.append_assoc, List.nil_append]
  refine (reads_peek _).bind ((reads_advance (.ident n) _ (by simp)).bind ?_)
  refine (reads_peek _).bind (hargs.bind ?_)
  rw [hlower]
  exact .pure (Expr.call none n args false) rest

/-! ### Suffixes -/

section Suffixes

variable {words : Bool} {e : Expr} (h : e.Parsed words)

include h

/-- What stands behind a tree as one of its suffixes. -/
theorem leadsAt_suffix {longer : Expr} {l : Lexeme} {tail : List Lexeme} (hl : rank? l = some 1)
    (hstep : ∀ {bound rest}, (l :: tail).length < bound → Ends 0 rest →
      Reads (suffix (expression bound) bound e) (l :: (tail ++ rest)) (some longer) rest) :
    LeadsAt 0 longer (within 1 e.rank (e.lexemes words) ++ l :: tail) := by
  have hleads : LeadsAt 0 e (within 1 e.rank (e.lexemes words)) := h.within_leads (by decide)
  have hpos := (h.opens.within 1).length_pos
  refine hleads.extend (Nat.succ_pos _) (fun rest => .of_rank hl Nat.one_pos _) ?_
  intro bound rest hbound hends
  rw [List.length_append] at hbound
  exact hstep (by omega) hends

theorem leadsAt_member (safe : Bool) (n : String) :
    LeadsAt 0 (.member e n safe) ((Expr.member e n safe).lexemes words) := by
  have hmark : rank? (memberMark safe) = some 1 := by cases safe <;> rfl
  refine leadsAt_suffix h hmark fun {bound rest} _ hends => ?_
  have hmember : Reads (memberOrCall (expression bound) bound e safe) (.ident n :: rest)
      (.member e n safe) rest := by
    refine (reads_ident .memberName n rest).bind ((reads_peek rest).bind ?_)
    split
    · exact absurd ‹_› (hends.front_ne rfl)
    · exact absurd ‹_› (hends.front_ne rfl)
    · exact .pure (Expr.member e n safe) rest
  refine (reads_peek _).bind ?_
  cases safe
  · exact (reads_advance (.symbol .dot) _ nofun).bind (hmember.map some)
  · exact (reads_advance (.symbol .safeDot) _ nofun).bind (hmember.map some)

theorem leadsAt_index {i : Expr} (hi : i.Parsed words) :
    LeadsAt 0 (.index e i) ((Expr.index e i).lexemes words) := by
  refine leadsAt_suffix h (show rank? (.symbol .lbracket) = some 1 from rfl)
    fun {bound rest} hbound _ => ?_
  simp only [List.length_cons, List.length_append, List.length_nil] at hbound
  have hplace : Reads (expression bound) (i.lexemes words ++ .symbol .rbracket :: rest) i
      (.symbol .rbracket :: rest) := hi.inner (by omega) (.of_none rfl 16 rest)
  rw [List.append_assoc]
  refine (reads_peek _).bind ((reads_advance (.symbol .lbracket) _ nofun).bind ?_)
  exact hplace.bind ((reads_expect .rbracket rest).bind (.pure (some (Expr.index e i)) rest))

theorem leadsAt_call {n : String} {args : List Expr} (safe : Bool)
    (hlower : Text.startsUppercase n = false) (hparsed : ∀ a ∈ args, a.Parsed words) :
    LeadsAt 0 (.call (some e) n args safe) ((Expr.call (some e) n args safe).lexemes words) := by
  have hmark : rank? (memberMark safe) = some 1 := by cases safe <;> rfl
  refine leadsAt_suffix h hmark fun {bound rest} hbound hends => ?_
  simp only [List.length_cons, List.length_append, List.length_nil] at hbound
  have hargs := reads_call hparsed (show _ < bound by omega) hends
  have hmethod : methodCall e n args safe = .call (some e) n args safe := by
    simp only [methodCall, hlower, Bool.and_false, Bool.false_eq_true, if_false]
  have hcall : Reads (memberOrCall (expression bound) bound e safe)
      (.ident n :: .symbol .lparen :: (argumentLexemes words args ++ .symbol .rparen :: rest))
      (.call (some e) n args safe) rest := by
    refine (reads_ident .memberName n _).bind ((reads_peek _).bind ?_)
    refine hargs.bind ?_
    rw [hmethod]
    exact .pure (Expr.call (some e) n args safe) rest
  simp only [List.cons_append, List.append_assoc, List.nil_append]
  refine (reads_peek _).bind ?_
  cases safe
  · exact (reads_advance (.symbol .dot) _ nofun).bind (hcall.map some)
  · exact (reads_advance (.symbol .safeDot) _ nofun).bind (hcall.map some)

end Suffixes

/-! ### Operators -/

section Operators

variable {words : Bool} {l r : Expr} (hl : l.Parsed words) (hr : r.Parsed words)

theorem rank_lexeme (words : Bool) (op : BinaryOp) : rank? (op.lexeme words) = some op.rank := by
  cases op
  case bitAnd | bitXor | bitOr => cases words <;> rfl
  all_goals rfl

theorem reads_operator {inner next : Parser Expr} {bound : Nat} {ls rest : List Lexeme}
    (op : BinaryOp) (hnext : Reads next ls r rest) :
    Reads (extension inner bound next op.rank l) (op.lexeme words :: ls) (some (.binary op l r))
      rest := by
  have htaken (lexeme : Lexeme) (h : lexeme ≠ .eof) : Reads (do
      advance
      return some (Expr.binary op l (← next))) (lexeme :: ls) (some (Expr.binary op l r)) rest :=
    (reads_advance lexeme ls h).bind (hnext.bind (.pure (some (Expr.binary op l r)) rest))
  cases op
  case bitAnd | bitXor | bitOr => cases words <;> exact (reads_peek _).bind (htaken _ nofun)
  all_goals exact (reads_peek _).bind (htaken _ nofun)

include hl hr

theorem leadsAt_binary (op : BinaryOp) {k : Nat} (hk : op.rank = k + 1) :
    LeadsAt k (.binary op l r) ((Expr.binary op l r).lexemes words) := by
  have hchained : Chained op.rank := by cases op <;> decide
  rw [hk] at hchained
  rw [Expr.lexemes, hk, Nat.add_sub_cancel]
  refine (hl.within_leads hchained).extend (Nat.succ_pos _)
    (fun rest => .of_rank ((rank_lexeme words op).trans (congrArg some hk)) (Nat.lt_succ_self k) _)
    fun {bound rest} hbound hends => ?_
  have hright : Reads (rung bound bound k) (within k r.rank (r.lexemes words) ++ rest) r rest := by
    simp only [List.length_append, List.length_cons] at hbound
    exact hr.within k (by omega) (by omega) hends
  have hread : Reads (extension (expression bound) bound (rung bound bound k) op.rank l)
      (op.lexeme words :: (within k r.rank (r.lexemes words) ++ rest)) (some (.binary op l r))
      rest := reads_operator op hright
  rwa [hk] at hread

theorem leadsAt_contains (negated : Bool) :
    LeadsAt 6 (.contains l r negated) ((Expr.contains l r negated).lexemes words) := by
  have hmark : rank? (.keyword (if negated then .notInside else .inside)) = some 7 := by
    cases negated <;> rfl
  have hleads : LeadsAt 6 l (within 7 l.rank (l.lexemes words)) := hl.within_leads (by decide)
  refine hleads.extend (Nat.succ_pos _) (fun rest => .of_rank hmark (by decide) _)
    fun {bound rest} hbound hends => ?_
  have hright : Reads (rung bound bound 6) (within 6 r.rank (r.lexemes words) ++ rest) r rest := by
    simp only [List.length_append, List.length_cons] at hbound
    exact hr.within 6 (by omega) (by omega) hends
  refine (reads_peek _).bind ?_
  cases negated
  · refine (reads_advance (.keyword .inside) _ nofun).bind ?_
    exact hright.bind (.pure (some (Expr.contains l r false)) rest)
  · refine (reads_advance (.keyword .notInside) _ nofun).bind ?_
    exact hright.bind (.pure (some (Expr.contains l r true)) rest)

theorem readAt_elvis : ReadAt 15 (.elvis l r) ((Expr.elvis l r).lexemes words) := by
  intro bound count rest hbound hcount hends
  simp only [Expr.lexemes, List.length_append, List.length_cons] at hbound hcount
  simp only [Expr.lexemes, List.append_assoc, List.cons_append]
  cases count with
  | zero => contradiction
  | succ count =>
    have hright : Reads (elvis (rung bound bound 14) count)
        (within 15 r.rank (r.lexemes words) ++ rest) r rest :=
      hr.within 15 (by omega) (by omega) hends
    have hleft (ls : List Lexeme) : Reads (rung bound bound 14)
        (within 14 l.rank (l.lexemes words) ++ .symbol .elvis :: ls) l (.symbol .elvis :: ls) :=
      hl.within 14 (by omega) (by omega) (.of_rank rfl (by decide) ls)
    refine (hleft _).bind ((reads_symbol .elvis _).bind ?_)
    exact hright.bind (.pure (Expr.elvis l r) rest)

end Operators

theorem UnaryOp.lexeme_ne_eof (op : UnaryOp) : op.lexeme ≠ .eof := by
  cases op <;> simp [UnaryOp.lexeme]

theorem readAt_unary {words : Bool} {e : Expr} (h : e.Parsed words) (op : UnaryOp) :
    ReadAt 2 (.unary op e) ((Expr.unary op e).lexemes words) := by
  intro bound count rest hbound hcount hends
  simp only [Expr.lexemes, List.length_cons] at hbound hcount
  cases count with
  | zero => contradiction
  | succ count =>
    have hoperand : Reads (unary (rung bound bound 1) count)
        (within 2 e.rank (e.lexemes words) ++ rest) e rest :=
      h.within 2 (by omega) (by omega) hends
    have htaken (l : Lexeme) (hl : l ≠ .eof) : Reads (do
        advance
        Expr.unary op <$> unary (rung bound bound 1) count)
        (l :: (within 2 e.rank (e.lexemes words) ++ rest)) (.unary op e) rest :=
      (reads_advance l _ hl).bind (hoperand.map (Expr.unary op))
    refine (reads_peek _).bind ?_
    cases op <;> exact htaken _ (UnaryOp.lexeme_ne_eof _)

/-- Behind a condition the branches are read. -/
theorem reads_branches {words : Bool} {c yes no : Expr} (hyes : yes.Parsed words)
    (hno : no.Parsed words) {bound : Nat} {ls rest : List Lexeme}
    (hcondition : Reads (rung bound bound 15) ls c
      (.symbol .question :: (yes.lexemes words ++ .symbol .colon :: (no.lexemes words ++ rest))))
    (hbound : (yes.lexemes words).length + (no.lexemes words).length < bound)
    (hends : Ends 16 rest) (count : Nat) :
    Reads (rung bound count 16) ls (.conditional c yes no) rest := by
  have hfirst (ls : List Lexeme) : Reads (expression bound)
      (yes.lexemes words ++ .symbol .colon :: ls) yes (.symbol .colon :: ls) :=
    hyes.inner (by omega) (.of_none rfl 16 ls)
  have hsecond : Reads (expression bound) (no.lexemes words ++ rest) no rest :=
    hno.inner (by omega) hends
  refine hcondition.bind ((reads_symbol .question _).bind ?_)
  refine (hfirst _).bind ((reads_expect .colon _).bind ?_)
  exact hsecond.bind (.pure (Expr.conditional c yes no) rest)

theorem readAt_conditional {words : Bool} {c yes no : Expr} (hc : c.Parsed words)
    (hyes : yes.Parsed words) (hno : no.Parsed words) :
    ReadAt 16 (.conditional c yes no) ((Expr.conditional c yes no).lexemes words) := by
  intro bound count rest hbound _ hends
  simp only [Expr.lexemes, List.length_append, List.length_cons] at hbound
  simp only [Expr.lexemes, List.append_assoc, List.cons_append]
  refine reads_branches hyes hno ?_ (by omega) hends count
  exact hc.within 15 (by omega) (by omega) (.of_rank rfl (by decide) _)

/-! ### Ranges -/

section Ranges

variable {words : Bool} {a b s : Expr}

theorem rank_rangeKind (kind : RangeKind) : rank? kind.lexeme = some 6 := by
  cases kind <;> rfl

theorem reads_rangeKind (kind : RangeKind) (ls : List Lexeme) :
    Reads rangeKind (kind.lexeme :: ls) (some kind) ls := by
  have hword (w : String) : Reads (takeSymbol .dotDot) (.ident w :: ls) false (.ident w :: ls) :=
    reads_noSymbol .dotDot _ nofun
  cases kind with
  | closed => exact (reads_symbol .dotDot ls).bind (.pure (some RangeKind.closed) ls)
  | «until» =>
    exact (hword "until").bind ((reads_word "until" ls).bind (.pure (some RangeKind.until) ls))
  | downTo =>
    have hother : front (.ident "downTo" :: ls) ≠ .ident "until" := by simp [front]
    refine (hword "downTo").bind ((reads_noWord "until" _ hother).bind ?_)
    exact (reads_word "downTo" ls).bind (.pure (some RangeKind.downTo) ls)

/-- A bound or the step of a range, with what stands behind it. -/
theorem reads_bound {e : Expr} (h : e.Parsed words) {bound : Nat}
    (hbound : (within 5 e.rank (e.lexemes words)).length ≤ bound) {rest : List Lexeme}
    (hends : Ends 5 rest) :
    Reads (rung bound bound 5) (within 5 e.rank (e.lexemes words) ++ rest) e rest :=
  h.within 5 hbound hbound hends

variable (ha : a.Parsed words) (hb : b.Parsed words) (hs : s.Parsed words) (kind : RangeKind)

include ha hb

theorem readAt_range :
    ReadAt 6 (.range kind a b none) ((Expr.range kind a b none).lexemes words) := by
  intro bound count rest hbound _ hends
  simp only [Expr.lexemes, List.length_append, List.length_cons] at hbound
  simp only [Expr.lexemes, List.append_assoc, List.cons_append]
  refine (reads_bound ha (by omega) (.of_rank (rank_rangeKind kind) (by decide) _)).bind ?_
  refine (reads_rangeKind kind _).bind ?_
  refine (reads_bound hb (by omega) (hends.mono (by decide))).bind ?_
  refine (reads_noWord "step" rest (hends.front_ne rfl)).bind ?_
  exact .pure (Expr.range kind a b none) rest

include hs

theorem readAt_stepped :
    ReadAt 6 (.range kind a b (some s)) ((Expr.range kind a b (some s)).lexemes words) := by
  intro bound count rest hbound _ hends
  simp only [Expr.lexemes, List.length_append, List.length_cons] at hbound
  simp only [Expr.lexemes, List.append_assoc, List.cons_append]
  refine (reads_bound ha (by omega) (.of_rank (rank_rangeKind kind) (by decide) _)).bind ?_
  refine (reads_rangeKind kind _).bind ?_
  refine (reads_bound hb (by omega) (.of_rank rfl (by decide) _)).bind ?_
  refine (reads_word "step" _).bind ?_
  refine (reads_bound hs (by omega) (hends.mono (by decide))).bind ?_
  exact .pure (Expr.range kind a b (some s)) rest

end Ranges

/-! ### Whole texts -/

namespace Expr.Plain

theorem parsed (words : Bool) {e : Expr} (h : e.Plain) : e.Parsed words := by
  have h0 : ¬ Chained 0 := by decide
  have h6 : ¬ Chained 6 := by decide
  induction h with
  | int nonneg => exact .of_read (.int nonneg) h0 (readAt_literal _)
  | long nonneg => exact .of_read (.long nonneg) h0 (readAt_literal _)
  | bool b => exact .of_read (.bool b) h0 (readAt_literal _)
  | null => exact .of_read .null h0 (readAt_literal _)
  | this => exact .of_read .this h0 readAt_this
  | name named => exact .of_read (.name named) h0 (readAt_name _)
  | call named lower passed hargs =>
    exact .of_read (.call named lower passed) h0 (readAt_call lower hargs)
  | member safe target named ht =>
    exact .of_leads (.member safe target named) rfl (leadsAt_member ht safe _)
  | index target place ht hp => exact .of_leads (.index target place) rfl (leadsAt_index ht hp)
  | callOn safe receiver named lower passed hr hargs =>
    exact .of_leads (.callOn safe receiver named lower passed) rfl
      (leadsAt_call hr safe lower hargs)
  | unary op operand ho =>
    exact .of_read (.unary op operand) (by decide : ¬ Chained 2) (readAt_unary ho op)
  | binary op left right hl hr =>
    obtain ⟨k, hk⟩ : ∃ k, op.rank = k + 1 :=
      Nat.exists_eq_succ_of_ne_zero (Nat.ne_zero_of_lt op.rank_bounds.1)
    exact .of_leads (.binary op left right) hk (leadsAt_binary hl hr op hk)
  | range kind first last ha hb =>
    exact .of_read (.range kind first last) h6 (readAt_range ha hb kind)
  | stepped kind first last step ha hb hs =>
    exact .of_read (.stepped kind first last step) h6 (readAt_stepped ha hb hs kind)
  | contains negated element whole he hw =>
    exact .of_leads (.contains negated element whole) rfl (leadsAt_contains he hw negated)
  | elvis left right hl hr =>
    exact .of_read (.elvis left right) (by decide : ¬ Chained 15) (readAt_elvis hl hr)
  | conditional condition first second hc hyes hno =>
    exact .of_read (.conditional condition first second) (by decide : ¬ Chained 16)
      (readAt_conditional hc hyes hno)

end Expr.Plain

/-- What is read as an expression in front of the end is that expression. -/
theorem parseTokens_of_reads {ls : List Lexeme} {e : Expr} {tokens : List Token}
    (h : Reads (expression (ls.length + 1)) (ls ++ [.eof]) e [.eof])
    (htokens : tokens.map (·.lexeme) = ls ++ [.eof]) : parseTokens tokens = .ok e := by
  have hlength : tokens.length = ls.length + 1 := by
    rw [← List.length_map, htokens, List.length_append, List.length_singleton]
  have hwhole : Reads (whole tokens.length) (ls ++ [.eof]) e [.eof] := by
    rw [hlength]
    exact h.bind ((reads_peek _).bind (.pure e _))
  obtain ⟨left, hread, -⟩ := hwhole tokens htokens
  change (fun read => read.1) <$> whole tokens.length tokens = _
  rw [hread]
  rfl

theorem Expr.Parsed.parseTokens_eq {words : Bool} {e : Expr} (h : e.Parsed words)
    {tokens : List Token} (htokens : tokens.map (·.lexeme) = e.lexemes words ++ [.eof]) :
    parseTokens tokens = .ok e :=
  parseTokens_of_reads (h.inner (Nat.lt_succ_self _) (.of_none rfl 16 [])) htokens

/-- The text of a plain tree spells that tree and no other. -/
theorem parse_print (words : Bool) {e : Expr} (h : e.Plain) : parse (e.print words) = .ok e := by
  obtain ⟨tokens, htokens, hlexemes⟩ := tokenize_written (h.legible words)
  rw [parse, Expr.print, htokens]
  exact (h.parsed words).parseTokens_eq hlexemes

/-- Words that are operators elsewhere are names where an operand stands. -/
theorem parse_print_words : parse "until until ( or or step ) step - b" =
    .ok (.range .until (.name "until") (.binary .bitOr (.name "or") (.name "step"))
      (some (.unary .neg (.name "b")))) := by
  refine (congrArg parse ?_).trans (parse_print true (.stepped .until (.name ?_)
    (.binary .bitOr (.name ?_) (.name ?_)) (.unary .neg (.name ?_))))
  all_goals decide

end Debugger.Syntax
