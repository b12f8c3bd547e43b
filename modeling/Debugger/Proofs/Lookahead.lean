import Debugger.Proofs.Braces

/-!
A parser run twice over the same tokens: once with the end behind them, and once with other tokens,
in front of which an expression stops as it does at the end. The steps that parsers are built of read
the same in both runs, and what they look at beyond the tokens makes no difference.
-/

namespace Debugger.Syntax

namespace Parser

/-- Nothing goes on at the end or at an assignment operator. -/
inductive Stops : Lexeme → Prop
  | eof : Stops .eof
  | assign (op : Assignment) : Stops (.assign op)

theorem Stops.ne_symbol {l : Lexeme} (h : Stops l) (s : Symbol) : l ≠ .symbol s := by
  rintro rfl
  cases h

theorem Stops.ne_ident {l : Lexeme} (h : Stops l) (name : String) : l ≠ .ident name := by
  rintro rfl
  cases h

/-- What stands behind the tokens in the first run, and in the second one. -/
class Endings (last : Token) (tail : List Token) : Prop where
  last_eof : last.lexeme = .eof
  stops : Stops (current tail)

theorem Endings.last_stops {last : Token} (tail : List Token) [Endings last tail] :
    Stops (current [last]) := by
  rw [current, Endings.last_eof tail]
  exact .eof

/-- The second run reads the same value as the first one and leaves the same tokens, which are as
they should be, or the first one fails at one of its tokens. -/
inductive Retraces {α : Type} (last : Token) (tail : List Token) (p q : Parser α) (us : List Token)
    (P : α → List Token → Prop) : Prop
  | reads {a : α} {vs : List Token} (first : p (us ++ [last]) = .ok (a, vs ++ [last]))
      (behind : vs <:+ us) (second : q (us ++ tail) = .ok (a, vs ++ tail)) (holds : P a vs)
  | fails {e : SyntaxError} {t : Token} (first : p (us ++ [last]) = .error e)
      (given : t ∈ us ++ [last]) (place : e.offset = t.offset)

/-- A lexeme is passed if it is the current one. -/
def Takes (l : Lexeme) (us : List Token) (taken : Bool) (vs : List Token) : Prop :=
  if taken then ∃ t, us = t :: vs ∧ t.lexeme = l else vs = us

/-- What is not expected is refused where it stands. -/
theorem unexpected_cons {α : Type} (expected : Expected) (t : Token) (ts : List Token) :
    ∃ e, (unexpected expected : Parser α) (t :: ts) = .error e ∧ e.offset = t.offset := by
  obtain ⟨l, offset⟩ := t
  cases l <;> exact ⟨_, rfl, rfl⟩

/-! ### Steps of two runs -/

namespace Retraces

variable {α β : Type} {last : Token} {tail us vs : List Token} {p q : Parser α}
  {f g : α → Parser β} {P : α → List Token → Prop} {Q : β → List Token → Prop}

theorem pure {a : α} (h : P a us) : Retraces last tail (Pure.pure a) (Pure.pure a) us P :=
  .reads rfl List.suffix_rfl rfl h

theorem mem_of_suffix {t : Token} (h : vs <:+ us) (ht : t ∈ vs ++ [last]) : t ∈ us ++ [last] := by
  rcases List.mem_append.mp ht with ht | ht
  · exact List.mem_append_left _ (h.mem ht)
  · exact List.mem_append_right _ ht

theorem bind (hp : Retraces last tail p q us P)
    (hf : ∀ a vs, vs <:+ us → P a vs → Retraces last tail (f a) (g a) vs Q) :
    Retraces last tail (p >>= f) (q >>= g) us Q := by
  have hbind {h : Parser α} {k : α → Parser β} {ts rest : List Token} {a : α}
      (hread : h ts = .ok (a, rest)) : (h >>= k) ts = k a rest := by
    simp only [Bind.bind, StateT.bind, hread, Except.bind]
  cases hp with
  | @reads a vs first behind second holds =>
    cases hf a vs behind holds with
    | reads first' behind' second' holds' =>
      exact .reads ((hbind first).trans first') (behind'.trans behind)
        ((hbind second).trans second') holds'
    | fails first' given place =>
      exact .fails ((hbind first).trans first') (mem_of_suffix behind given) place
  | fails first given place =>
    refine .fails ?_ given place
    simp only [Bind.bind, StateT.bind, first, Except.bind]

theorem mono (h : Retraces last tail p q us P) {P' : α → List Token → Prop}
    (hP : ∀ a vs, vs <:+ us → P a vs → P' a vs) : Retraces last tail p q us P' := by
  cases h with
  | reads first behind second holds => exact .reads first behind second (hP _ _ behind holds)
  | fails first given place => exact .fails first given place

theorem congr {p' q' : Parser α} (hp : p (us ++ [last]) = p' (us ++ [last]))
    (hq : q (us ++ tail) = q' (us ++ tail)) (h : Retraces last tail p' q' us P) :
    Retraces last tail p q us P := by
  cases h with
  | reads first behind second holds => exact .reads (hp.trans first) behind (hq.trans second) holds
  | fails first given place => exact .fails (hp.trans first) given place

/-- What the first run reads may be used. -/
theorem run (h : Retraces last tail p q us P) :
    Retraces last tail p q us fun a vs => P a vs ∧ p (us ++ [last]) = .ok (a, vs ++ [last]) := by
  cases h with
  | reads first behind second holds => exact .reads first behind second ⟨holds, first⟩
  | fails first given place => exact .fails first given place

theorem unexpected (expected : Expected) :
    Retraces last tail (Parser.unexpected expected : Parser α) q us P := by
  cases us with
  | nil =>
    obtain ⟨e, hrun, he⟩ := unexpected_cons (α := α) expected last []
    exact .fails hrun (List.mem_singleton_self last) he
  | cons t us =>
    obtain ⟨e, hrun, he⟩ := unexpected_cons (α := α) expected t (us ++ [last])
    exact .fails hrun List.mem_cons_self he

/-- Both runs go on behind the first token. -/
theorem step {t : Token} {p' q' : Parser α} (hp : ∀ ts, p (t :: ts) = p' ts)
    (hq : ∀ ts, q (t :: ts) = q' ts) (h : Retraces last tail p' q' vs P) :
    Retraces last tail p q (t :: vs) P := by
  have ht : vs <:+ t :: vs := List.suffix_cons t vs
  cases h with
  | reads first behind second holds =>
    exact .reads ((hp _).trans first) (behind.trans ht) ((hq _).trans second) holds
  | fails first given place => exact .fails ((hp _).trans first) (mem_of_suffix ht given) place

theorem advance {t : Token} (ht : t.lexeme ≠ .eof) {p q : Parser β}
    (h : Retraces last tail p q vs Q) :
    Retraces last tail (Parser.advance >>= fun _ => p) (Parser.advance >>= fun _ => q) (t :: vs)
      Q := by
  have hadvance (k : Parser β) (ts : List Token) :
      (Parser.advance >>= fun _ => k) (t :: ts) = k ts := by
    obtain ⟨l, offset⟩ := t
    cases l <;> first | rfl | exact absurd rfl ht
  exact .step (hadvance p) (hadvance q) h

theorem get {f g : List Token → Parser β}
    (h : Retraces last tail (f (us ++ [last])) (g (us ++ tail)) us Q) :
    Retraces last tail (MonadState.get >>= f) (MonadState.get >>= g) us Q := by
  cases h with
  | reads first behind second holds => exact .reads first behind second holds
  | fails first given place => exact .fails first given place

theorem set {p q : Parser β} (hvs : vs <:+ us) (h : Retraces last tail p q vs Q) :
    Retraces last tail (MonadStateOf.set (vs ++ [last]) >>= fun _ => p)
      (MonadStateOf.set (vs ++ tail) >>= fun _ => q) us Q := by
  cases h with
  | reads first behind second holds => exact .reads first (behind.trans hvs) second holds
  | fails first given place => exact .fails first (mem_of_suffix hvs given) place

theorem modifyGet [Endings last tail] {k : List Token → α × List Token} {a : α}
    (hk : ∀ ending, Stops (current ending) → k (us ++ ending) = (a, vs ++ ending)) (hvs : vs <:+ us)
    (h : Retraces last tail (f a) (g a) vs Q) :
    Retraces last tail (MonadState.modifyGet k >>= f) (MonadState.modifyGet k >>= g) us Q := by
  have hmodify : Retraces last tail (MonadState.modifyGet k) (MonadState.modifyGet k) us
      fun b ws => b = a ∧ ws = vs :=
    .reads (congrArg Except.ok (hk [last] (Endings.last_stops tail))) hvs
      (congrArg Except.ok (hk tail (Endings.stops last))) ⟨rfl, rfl⟩
  refine hmodify.bind ?_
  rintro b ws - ⟨rfl, rfl⟩
  exact h

theorem takes_bind {l : Lexeme} {take : Parser Bool} {f g : Bool → Parser β}
    (htake : Retraces last tail take take us (Takes l us))
    (htaken : ∀ t vs, us = t :: vs → t.lexeme = l → Retraces last tail (f true) (g true) vs Q)
    (hleft : Retraces last tail (f false) (g false) us Q) :
    Retraces last tail (take >>= f) (take >>= g) us Q := by
  refine htake.bind fun taken vs _ htakes => ?_
  cases taken with
  | false =>
    obtain rfl : vs = us := htakes
    exact hleft
  | true =>
    obtain ⟨t, hus, ht⟩ := htakes
    exact htaken t vs hus ht

variable [Endings last tail]

theorem peek {f g : Lexeme → Parser β} (hstop : ∀ op, g (.assign op) = g .eof)
    (h : ∀ l, current (us ++ [last]) = l → Retraces last tail (f l) (g l) us Q) :
    Retraces last tail (Parser.peek >>= f) (Parser.peek >>= g) us Q := by
  have hsame : g (current (us ++ tail)) = g (current (us ++ [last])) := by
    cases us with
    | cons t us => rfl
    | nil =>
      have hlast : current ([] ++ [last]) = .eof := Endings.last_eof tail
      have htail : Stops (current tail) := Endings.stops last
      rw [hlast, List.nil_append]
      generalize current tail = l at htail
      cases htail with
      | eof => rfl
      | assign op => exact hstop op
  cases h _ rfl with
  | reads first behind second holds =>
    refine .reads first behind ?_ holds
    rw [peek_run, hsame, second]
  | fails first given place => exact .fails first given place

/-- A lexeme in front that is not the end stands there in both runs. -/
theorem exists_cons (hlast : last.lexeme = .eof) {l : Lexeme} (hl : current (us ++ [last]) = l)
    (hne : l ≠ .eof) : ∃ t vs, us = t :: vs ∧ t.lexeme = l := by
  cases us with
  | nil => exact absurd (hl.symm.trans hlast) hne
  | cons t us => exact ⟨t, us, rfl, hl⟩

theorem takeSymbol {s : Symbol} {f g : Bool → Parser β}
    (htaken : ∀ t vs, us = t :: vs → t.lexeme = .symbol s →
      Retraces last tail (f true) (g true) vs Q)
    (hleft : Retraces last tail (f false) (g false) us Q) :
    Retraces last tail (Parser.takeSymbol s >>= f) (Parser.takeSymbol s >>= g) us Q := by
  refine takes_bind ?_ htaken hleft
  refine .peek (fun _ => rfl) fun l hl => ?_
  split
  · split
    · rename_i hs
      subst hs
      obtain ⟨t, vs, rfl, ht⟩ := exists_cons (Endings.last_eof tail) hl nofun
      exact .advance (ht ▸ nofun) (.pure ⟨t, rfl, ht⟩)
    · exact .pure rfl
  · exact .pure rfl

theorem takeWord {word : String} {f g : Bool → Parser β}
    (htaken : ∀ t vs, us = t :: vs → t.lexeme = .ident word →
      Retraces last tail (f true) (g true) vs Q)
    (hleft : Retraces last tail (f false) (g false) us Q) :
    Retraces last tail (Parser.takeWord word >>= f) (Parser.takeWord word >>= g) us Q := by
  refine takes_bind ?_ htaken hleft
  refine .peek (fun _ => rfl) fun l hl => ?_
  split
  · split
    · rename_i hword
      subst hword
      obtain ⟨t, vs, rfl, ht⟩ := exists_cons (Endings.last_eof tail) hl nofun
      exact .advance (ht ▸ nofun) (.pure ⟨t, rfl, ht⟩)
    · exact .pure rfl
  · exact .pure rfl

theorem expect {s : Symbol} {f g : Unit → Parser β}
    (h : ∀ t vs, us = t :: vs → t.lexeme = .symbol s → Retraces last tail (f ()) (g ()) vs Q) :
    Retraces last tail (Parser.expect s >>= f) (Parser.expect s >>= g) us Q := by
  have hexpect : Retraces last tail (Parser.expect s) (Parser.expect s) us
      fun _ vs => ∃ t, us = t :: vs ∧ t.lexeme = .symbol s :=
    .takeSymbol (fun t vs hus ht => .pure ⟨t, hus, ht⟩) (.unexpected _)
  refine hexpect.bind ?_
  rintro ⟨⟩ vs - ⟨t, hus, ht⟩
  exact h t vs hus ht

theorem ident {expected : Expected} {f g : String → Parser β}
    (h : ∀ t vs name, us = t :: vs → t.lexeme = .ident name →
      Retraces last tail (f name) (g name) vs Q) :
    Retraces last tail (Parser.ident expected >>= f) (Parser.ident expected >>= g) us Q := by
  have hident : Retraces last tail (Parser.ident expected) (Parser.ident expected) us
      fun name vs => ∃ t, us = t :: vs ∧ t.lexeme = .ident name := by
    refine .peek (fun _ => rfl) fun l hl => ?_
    split
    · obtain ⟨t, vs, rfl, ht⟩ := exists_cons (Endings.last_eof tail) hl nofun
      exact .advance (ht ▸ nofun) (.pure ⟨t, rfl, ht⟩)
    · exact .unexpected expected
  refine hident.bind ?_
  rintro name vs - ⟨t, hus, ht⟩
  exact h t vs name hus ht

end Retraces

/-! ### What reads several tokens at once -/

section Endings

variable {tail : List Token} (hstops : Stops (current tail))

include hstops

/-- Of two tokens that begin in front of the last one at the earliest, one is behind the end. -/
theorem stops_ahead {us rest : List Token} {t u : Token}
    (hshort : ∀ t u more, us = t :: u :: more → False) (heq : us ++ tail = t :: u :: rest) :
    Stops t.lexeme ∨ Stops u.lexeme := by
  match us, heq with
  | [], heq =>
    obtain rfl : tail = t :: u :: rest := heq
    exact .inl hstops
  | [v], heq =>
    obtain ⟨rfl, rfl⟩ := List.cons.inj heq
    exact .inr hstops
  | v :: w :: more, _ => exact (hshort v w more rfl).elim

theorem dottedTail_append (name : String) (us : List Token) :
    dottedTail name (us ++ tail) = ((dottedTail name us).1, (dottedTail name us).2 ++ tail) := by
  fun_induction dottedTail name us with
  | case1 name d i rest segment hd hi ih => simp [dottedTail, hd, hi, ih]
  | case2 name d i rest hother =>
    rw [List.cons_append, List.cons_append, dottedTail]
    split
    · exact absurd ‹_› (hother _ ‹_›)
    · rfl
  | case3 name us hshort =>
    unfold dottedTail
    split
    · rename_i d i rest heq
      split
      · rename_i hd hi
        rcases stops_ahead hstops hshort heq with h | h
        · exact absurd hd (h.ne_symbol _)
        · exact absurd hi (h.ne_ident _)
      · exact congrArg _ heq.symm
    · rfl

theorem arraySuffixes_append (name : String) (us : List Token) :
    arraySuffixes name (us ++ tail) =
      ((arraySuffixes name us).1, (arraySuffixes name us).2 ++ tail) := by
  fun_induction arraySuffixes name us with
  | case1 name l r rest hl hr ih => simp [arraySuffixes, hl, hr, ih]
  | case2 name l r rest hother =>
    rw [List.cons_append, List.cons_append, arraySuffixes]
    split
    · exact absurd ‹_› (hother ‹_›)
    · rfl
  | case3 name us hshort =>
    unfold arraySuffixes
    split
    · rename_i l r rest heq
      split
      · rename_i hl hr
        rcases stops_ahead hstops hshort heq with h | h
        · exact absurd hl (h.ne_symbol _)
        · exact absurd hr (h.ne_symbol _)
      · exact congrArg _ heq.symm
    · rfl

theorem lambdaParams_append (us : List Token) :
    lambdaParams (us ++ tail) = (lambdaParams us).map fun (names, vs) => (names, vs ++ tail) := by
  fun_induction lambdaParams us with
  | case1 i s rest name hs hi => simp [lambdaParams, hs, hi]
  | case2 i s rest name hs hi ih => simp [lambdaParams, hs, hi, ih, Function.comp_def]
  | case3 i s rest harrow hcomma =>
    rw [List.cons_append, List.cons_append, lambdaParams]
    split
    · exact absurd ‹_› (harrow _ ‹_›)
    · exact absurd ‹_› (hcomma _ ‹_›)
    · rfl
  | case4 us hshort =>
    unfold lambdaParams
    split
    · rename_i i s rest heq
      have hnot (name : String) (mark : Symbol) :
          i.lexeme = .ident name → s.lexeme = .symbol mark → False := by
        intro hi hs
        rcases stops_ahead hstops hshort heq with h | h
        · exact h.ne_ident _ hi
        · exact h.ne_symbol _ hs
      split
      · exact (hnot _ _ ‹_› ‹_›).elim
      · exact (hnot _ _ ‹_› ‹_›).elim
      · rfl
    · rfl

end Endings

/-- Generic arguments as a parser of their own. -/
def passArguments (depth : Nat) : Parser Unit :=
  fun ts => (skipArguments depth ts).map (((), ·))

theorem passArguments_bind {β : Type} (q : Parser β) :
    (do set (← skipArguments 0 (← get)); q : Parser β) = passArguments 0 >>= fun _ => q := by
  funext ts
  rw [replace_run]
  simp only [Bind.bind, StateT.bind, passArguments, Except.bind]
  cases skipArguments 0 ts <;> rfl

/-- Generic arguments go on, are closed, or end too early at the first token. -/
theorem skipArguments_cons (depth : Nat) (t : Token) :
    (∃ inside, ∀ ts, skipArguments depth (t :: ts) = skipArguments inside ts) ∨
      (∀ ts, skipArguments depth (t :: ts) = .ok ts) ∨
      ∀ ts, skipArguments depth (t :: ts) =
        .error (.unexpected .typeArgumentsEnd .eof t.offset) := by
  simp only [skipArguments]
  split
  · exact .inl ⟨depth + 1, fun _ => rfl⟩
  · split
    · exact .inr (.inl fun _ => rfl)
    · exact .inl ⟨depth - 1, fun _ => rfl⟩
  · exact .inr (.inr fun _ => rfl)
  · exact .inl ⟨depth, fun _ => rfl⟩

theorem passArguments_retraces {last : Token} {tail : List Token} [Endings last tail]
    (depth : Nat) (us : List Token) :
    Retraces last tail (passArguments depth) (passArguments depth) us fun _ _ => True := by
  induction us generalizing depth with
  | nil =>
    refine .fails (e := .unexpected .typeArgumentsEnd .eof last.offset) ?_
      (List.mem_singleton_self last) rfl
    simp only [passArguments, List.nil_append, skipArguments, Endings.last_eof tail]
    rfl
  | cons t us ih =>
    rcases skipArguments_cons depth t with ⟨inside, h⟩ | h | h
    · have hpass (ts : List Token) : passArguments depth (t :: ts) = passArguments inside ts := by
        rw [passArguments, h, passArguments]
      exact .step hpass hpass (ih inside)
    · have hpass (ts : List Token) : passArguments depth (t :: ts) =
          (Pure.pure () : Parser Unit) ts := by
        rw [passArguments, h]
        rfl
      exact .step hpass hpass (.pure trivial)
    · exact .fails (t := t) (congrArg _ (h _)) List.mem_cons_self rfl

theorem typeRef_retraces {last : Token} {tail : List Token} [Endings last tail]
    (us : List Token) :
    Retraces last tail typeRef typeRef us fun _ _ => True := by
  have hnullable (name : String) (us : List Token) : Retraces last tail
      (do return TypeRef.mk name (← takeSymbol .question))
      (do return TypeRef.mk name (← takeSymbol .question)) us fun _ _ => True :=
    .takeSymbol (fun _ _ _ _ => .pure trivial) (.pure trivial)
  have hsuffixes (name : String) (us : List Token) : Retraces last tail
      (do let name ← modifyGet (arraySuffixes name); return TypeRef.mk name (← takeSymbol .question))
      (do let name ← modifyGet (arraySuffixes name); return TypeRef.mk name (← takeSymbol .question))
      us fun _ _ => True :=
    .modifyGet (fun _ hstops => arraySuffixes_append hstops name us) (arraySuffixes_behind name us)
      (hnullable _ _)
  refine .ident fun t vs first _ _ => ?_
  refine .modifyGet (fun _ hstops => dottedTail_append hstops first vs)
    (dottedTail_behind first vs) ?_
  refine .peek (fun _ => rfl) fun l hl => ?_
  split
  · rw [passArguments_bind]
    exact (passArguments_retraces 0 _).bind fun _ us _ _ => hsuffixes _ us
  · exact hsuffixes _ _

end Parser

end Debugger.Syntax
