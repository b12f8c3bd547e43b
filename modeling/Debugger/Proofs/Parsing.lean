import Debugger.Syntax.Parser
import Debugger.Proofs.Printing

/-!
What parsers read off lexemes, wherever these stand in a text, and the levels of precedence as one
ladder. A level passes on what the next tighter one reads, unless the lexeme behind it makes the
expression go on there.
-/

namespace Debugger.Syntax

namespace Parser

/-- From tokens that spell the first lexemes the parser gets the value, and leaves tokens that spell
the last ones. -/
def Reads {α : Type} (p : Parser α) (ls : List Lexeme) (a : α) (rest : List Lexeme) : Prop :=
  ∀ ts, ts.map (·.lexeme) = ls → ∃ ts', p ts = .ok (a, ts') ∧ ts'.map (·.lexeme) = rest

/-- The lexeme in front; behind the last one there is only the end. -/
def front (ls : List Lexeme) : Lexeme :=
  ls.headD .eof

/-! ### Parts of parsers -/

namespace Reads

variable {α β : Type} {ls ms rest : List Lexeme}

theorem pure (a : α) (ls : List Lexeme) : Reads (Pure.pure a) ls a ls :=
  fun ts hts => ⟨ts, rfl, hts⟩

theorem bind {p : Parser α} {f : α → Parser β} {a : α} {b : β} (hp : Reads p ls a ms)
    (hf : Reads (f a) ms b rest) : Reads (p >>= f) ls b rest := by
  intro ts hts
  obtain ⟨us, hp, hus⟩ := hp ts hts
  obtain ⟨vs, hf, hvs⟩ := hf us hus
  refine ⟨vs, ?_, hvs⟩
  simp only [Bind.bind, StateT.bind, hp, Except.bind]
  exact hf

theorem map {p : Parser α} {a : α} (f : α → β) (hp : Reads p ls a rest) :
    Reads (f <$> p) ls (f a) rest := by
  rw [map_eq_pure_bind]
  exact hp.bind (pure _ _)

end Reads

theorem front_map (ts : List Token) : front (ts.map (·.lexeme)) = current ts := by
  cases ts <;> rfl

theorem reads_peek (ls : List Lexeme) : Reads peek ls (front ls) ls := by
  rintro ts rfl
  exact ⟨ts, by rw [front_map]; rfl, rfl⟩

theorem reads_advance (l : Lexeme) (ls : List Lexeme) (h : l ≠ .eof) :
    Reads advance (l :: ls) () ls := by
  intro ts hts
  obtain ⟨t, ts, rfl, rfl, rfl⟩ := List.map_eq_cons_iff.mp hts
  refine ⟨ts, ?_, rfl⟩
  obtain ⟨l, offset⟩ := t
  cases l with
  | eof => contradiction
  | literal | template | ident | keyword | symbol | assign => rfl

theorem reads_symbol (s : Symbol) (ls : List Lexeme) :
    Reads (takeSymbol s) (.symbol s :: ls) true ls := by
  refine (reads_peek _).bind ?_
  change Reads (if s = s then do advance; return true else return false) _ _ _
  rw [if_pos rfl]
  exact (reads_advance (.symbol s) ls nofun).bind (.pure true ls)

theorem reads_noSymbol (s : Symbol) (ls : List Lexeme) (h : front ls ≠ .symbol s) :
    Reads (takeSymbol s) ls false ls := by
  refine (reads_peek ls).bind ?_
  split
  · rename_i found hfront
    have hne : found ≠ s := by
      rintro rfl
      exact h hfront
    rw [if_neg hne]
    exact .pure false ls
  · exact .pure false ls

theorem reads_word (w : String) (ls : List Lexeme) :
    Reads (takeWord w) (.ident w :: ls) true ls := by
  refine (reads_peek _).bind ?_
  change Reads (if w = w then do advance; return true else return false) _ _ _
  rw [if_pos rfl]
  exact (reads_advance (.ident w) ls nofun).bind (.pure true ls)

theorem reads_noWord (w : String) (ls : List Lexeme) (h : front ls ≠ .ident w) :
    Reads (takeWord w) ls false ls := by
  refine (reads_peek ls).bind ?_
  split
  · rename_i found hfront
    have hne : found ≠ w := by
      rintro rfl
      exact h hfront
    rw [if_neg hne]
    exact .pure false ls
  · exact .pure false ls

theorem reads_expect (s : Symbol) (ls : List Lexeme) : Reads (expect s) (.symbol s :: ls) () ls :=
  (reads_symbol s ls).bind (.pure () ls)

theorem reads_ident (expected : Expected) (n : String) (ls : List Lexeme) :
    Reads (ident expected) (.ident n :: ls) n ls :=
  (reads_peek _).bind ((reads_advance (.ident n) ls nofun).bind (.pure n ls))

/-! ### Chains -/

variable {extend : Expr → Parser (Option Expr)} {ls ms rest : List Lexeme} {e e' a : Expr}

/-- A chain ends where no operator of its follows, however long it might yet have been. -/
theorem reads_chain_end (h : Reads (extend e) rest none rest) (n : Nat) :
    Reads (chain extend n e) rest e rest := by
  cases n with
  | zero => exact .pure e rest
  | succ n => exact h.bind (.pure e rest)

theorem reads_chain_step (h : Reads (extend e) ls (some e') ms) {n : Nat}
    (hmore : Reads (chain extend n e') ms a rest) : Reads (chain extend (n + 1) e) ls a rest :=
  h.bind hmore

/-! ### The ladder -/

/-- The operators of the levels that have binary operators alone. -/
def binaryLevel : Nat → Level
  | 3 => products
  | 4 => sums
  | 5 => shifts
  | 9 => equalities
  | 10 => bitAnds
  | 11 => bitXors
  | 12 => bitOrs
  | 13 => ands
  | 14 => ors
  | _ => fun _ => none

/-- How an expression goes on at a level that groups to the left. -/
def extension (inner : Parser Expr) (bound : Nat) (next : Parser Expr) (r : Nat) (left : Expr) :
    Parser (Option Expr) :=
  match r with
  | 1 => suffix inner bound left
  | 7 => do
    match ← peek with
    | .keyword .inside => advance; return some (.contains left (← next) false)
    | .keyword .notInside => advance; return some (.contains left (← next) true)
    | _ => return none
  | 8 => do
    match ← peek with
    | .keyword .isType => advance; return some (.typeCheck left (← typeRef) false)
    | .keyword .notIsType => advance; return some (.typeCheck left (← typeRef) true)
    | found => match comparisons found with
      | some op => advance; return some (.binary op left (← next))
      | none => return none
  | r => do
    match binaryLevel r (← peek) with
    | some op => advance; return some (.binary op left (← next))
    | none => return none

/-- The level of a rank above the next tighter one. Its own operators are counted by `count`. -/
def layer (inner : Parser Expr) (bound : Nat) (next : Parser Expr) (count : Nat) :
    Nat → Parser Expr
  | 0 => primary inner bound
  | 2 => unary next count
  | 6 => range next
  | 15 => elvis next count
  | 16 => do
    let condition ← next
    if ← takeSymbol .question then
      let yes ← inner
      expect .colon
      return .conditional condition yes (← inner)
    return condition
  | r => next >>= chain (extension inner bound next r) count

def level (inner : Parser Expr) (bound count : Nat) : Nat → Parser Expr
  | 0 => primary inner bound
  | r + 1 => layer inner bound (level inner bound bound r) count (r + 1)

/-- The levels of the parser are those of the ladder, one on top of the other. -/
theorem operators_eq (inner : Parser Expr) (bound : Nat) :
    operators inner bound = level inner bound bound 15 := by
  let rung := level inner bound bound
  have hsuffixed : suffixed inner bound = rung 1 := rfl
  have hunary : unary (rung 1) bound = rung 2 := rfl
  have hproducts : binary products bound (rung 2) = rung 3 := rfl
  have hsums : binary sums bound (rung 3) = rung 4 := rfl
  have hshifts : binary shifts bound (rung 4) = rung 5 := rfl
  have hrange : range (rung 5) = rung 6 := rfl
  have hmembership : membership bound (rung 6) = rung 7 := rfl
  have hcomparison : comparison bound (rung 7) = rung 8 := rfl
  have hequalities : binary equalities bound (rung 8) = rung 9 := rfl
  have hbitAnds : binary bitAnds bound (rung 9) = rung 10 := rfl
  have hbitXors : binary bitXors bound (rung 10) = rung 11 := rfl
  have hbitOrs : binary bitOrs bound (rung 11) = rung 12 := rfl
  have hands : binary ands bound (rung 12) = rung 13 := rfl
  have hors : binary ors bound (rung 13) = rung 14 := rfl
  have helvis : elvis (rung 14) bound = rung 15 := rfl
  simp only [operators, hsuffixed, hunary, hproducts, hsums, hshifts, hrange, hmembership,
    hcomparison, hequalities, hbitAnds, hbitXors, hbitOrs, hands, hors, helvis]
  rfl

theorem ternary_eq (inner : Parser Expr) (bound : Nat) :
    ternary inner bound = level inner bound bound 16 := by
  rw [ternary, operators_eq]
  rfl

/-! ### Where a level ends -/

def symbolRank? : Symbol → Option Nat
  | .lparen | .lbrace => some 0
  | .dot | .safeDot | .lbracket => some 1
  | .star | .slash | .percent => some 3
  | .plus | .minus => some 4
  | .dotDot => some 6
  | .lt | .le | .gt | .ge => some 8
  | .eqEq | .bangEq => some 9
  | .amp => some 10
  | .caret => some 11
  | .pipe => some 12
  | .ampAmp => some 13
  | .pipePipe => some 14
  | .elvis => some 15
  | .question => some 16
  | _ => none

def keywordRank? : Keyword → Option Nat
  | .asType => some 1
  | .inside | .notInside => some 7
  | .isType | .notIsType => some 8
  | _ => none

/-- Names that are operators where one can stand. -/
def wordRanks : List (String × Nat) :=
  [("shl", 5), ("shr", 5), ("ushr", 5), ("until", 6), ("downTo", 6), ("step", 6), ("and", 10),
    ("xor", 11), ("or", 12)]

/-- The level at which a lexeme makes the expression in front of it go on. -/
def rank? : Lexeme → Option Nat
  | .symbol s => symbolRank? s
  | .keyword w => keywordRank? w
  | .ident n => wordRanks.lookup n
  | _ => none

/-- What follows belongs to no expression of the rank or a tighter one. -/
def Ends (r : Nat) (rest : List Lexeme) : Prop :=
  ∀ k, rank? (front rest) = some k → r < k

theorem Ends.mono {r k : Nat} {rest : List Lexeme} (h : Ends r rest) (hk : k ≤ r) :
    Ends k rest :=
  fun m hm => Nat.lt_of_le_of_lt hk (h m hm)

/-- No lexeme in front makes an expression of the rank go on. -/
theorem Ends.front_ne {r : Nat} {rest : List Lexeme} (h : Ends r rest) {l : Lexeme}
    (hl : rank? l = some r) : front rest ≠ l := by
  rintro rfl
  exact Nat.lt_irrefl r (h r hl)

theorem Ends.of_none {l : Lexeme} (hl : rank? l = none) (r : Nat) (rest : List Lexeme) :
    Ends r (l :: rest) := by
  intro k hk
  rw [show front (l :: rest) = l from rfl, hl] at hk
  contradiction

theorem Ends.of_rank {l : Lexeme} {k r : Nat} (hl : rank? l = some k) (hr : r < k)
    (rest : List Lexeme) : Ends r (l :: rest) := by
  intro m hm
  rw [show front (l :: rest) = l from rfl, hl] at hm
  cases hm
  exact hr

/-- A lexeme of a level of binary operators is one of its operators. -/
theorem rank_of_binaryLevel {r : Nat} {l : Lexeme} {op : BinaryOp}
    (h : binaryLevel r l = some op) : rank? l = some r := by
  unfold binaryLevel at h
  split at h
  case h_10 => contradiction
  all_goals
    simp only [products, sums, shifts, equalities, bitAnds, bitXors, bitOrs, ands, ors] at h
    split at h <;> first | rfl | contradiction

theorem rank_of_comparisons {l : Lexeme} {op : BinaryOp} (h : comparisons l = some op) :
    rank? l = some 8 := by
  unfold comparisons at h
  split at h <;> first | rfl | contradiction

section Through

variable {inner next : Parser Expr} {bound r : Nat} {ls rest : List Lexeme} {e : Expr}

theorem reads_noExtension (h : Ends r rest) (left : Expr) :
    Reads (extension inner bound next r left) rest none rest := by
  unfold extension
  split
  · refine (reads_peek rest).bind ?_
    split
    · exact absurd ‹_› (h.front_ne rfl)
    · exact absurd ‹_› (h.front_ne rfl)
    · exact absurd ‹_› (h.front_ne rfl)
    · exact absurd ‹_› (h.front_ne rfl)
    · exact .pure none rest
  · refine (reads_peek rest).bind ?_
    split
    · exact absurd ‹_› (h.front_ne rfl)
    · exact absurd ‹_› (h.front_ne rfl)
    · exact .pure none rest
  · refine (reads_peek rest).bind ?_
    split
    · exact absurd ‹_› (h.front_ne rfl)
    · exact absurd ‹_› (h.front_ne rfl)
    · cases hop : comparisons (front rest) with
      | none => exact .pure none rest
      | some op => exact absurd rfl (h.front_ne (rank_of_comparisons hop))
  · refine (reads_peek rest).bind ?_
    cases hop : binaryLevel r (front rest) with
    | none => exact .pure none rest
    | some op => exact absurd rfl (h.front_ne (rank_of_binaryLevel hop))

theorem reads_layer (hr : r ≠ 0) (hnext : Reads next ls e rest) (hends : Ends r rest)
    (hunary : r = 2 → unaryOp (front ls) = none) (count : Nat) :
    Reads (layer inner bound next count r) ls e rest := by
  unfold layer
  split
  · contradiction
  · cases count with
    | zero => exact hnext
    | succ count =>
      refine (reads_peek ls).bind ?_
      rw [hunary rfl]
      exact hnext
  · refine hnext.bind ?_
    have hkind : Reads rangeKind rest none rest := by
      refine (reads_noSymbol _ rest (hends.front_ne rfl)).bind ?_
      refine (reads_noWord _ rest (hends.front_ne rfl)).bind ?_
      exact (reads_noWord _ rest (hends.front_ne rfl)).bind (.pure none rest)
    exact hkind.bind (.pure e rest)
  · cases count with
    | zero => exact hnext
    | succ count =>
      exact hnext.bind ((reads_noSymbol _ rest (hends.front_ne rfl)).bind (.pure e rest))
  · exact hnext.bind ((reads_noSymbol _ rest (hends.front_ne rfl)).bind (.pure e rest))
  · exact hnext.bind (reads_chain_end (reads_noExtension hends e) count)

/-- What one level reads, every looser one reads as well. Operators that are counted take no more
than there are lexemes. -/
theorem reads_level {k : Nat} (hkr : k ≤ r) {length : Nat}
    (hown : ∀ count, length ≤ count → Reads (level inner bound count k) ls e rest)
    (hbound : length ≤ bound) (hends : Ends r rest)
    (hunary : k ≤ 1 → unaryOp (front ls) = none) :
    ∀ count, length ≤ count → Reads (level inner bound count r) ls e rest := by
  induction hkr with
  | refl => exact hown
  | @step r hkr ih =>
    intro count _
    have htight := ih (hends.mono (Nat.le_succ r)) bound hbound
    have hk : k ≤ r := hkr
    exact reads_layer (Nat.succ_ne_zero r) htight hends (fun hr => hunary (by omega)) count

end Through

/-! ### Levels that group to the left -/

/-- A level whose operators form chains. -/
def Chained (r : Nat) : Prop :=
  r ≠ 0 ∧ r ≠ 2 ∧ r ≠ 6 ∧ r < 15

instance : DecidablePred Chained :=
  fun r => inferInstanceAs (Decidable (r ≠ 0 ∧ r ≠ 2 ∧ r ≠ 6 ∧ r < 15))

theorem level_chained (inner : Parser Expr) (bound count : Nat) {r : Nat} (h : Chained (r + 1)) :
    level inner bound count (r + 1) = level inner bound bound r >>=
      chain (extension inner bound (level inner bound bound r) (r + 1)) count := by
  obtain ⟨h0, h2, h6, h15⟩ := h
  change layer inner bound (level inner bound bound r) count (r + 1) = _
  unfold layer
  split
  · contradiction
  · contradiction
  · contradiction
  · exact absurd h15 (by omega)
  · exact absurd h15 (by omega)
  · rfl

end Parser

end Debugger.Syntax
