import Debugger.Proofs.Lookahead

/-!
The parser reads an expression in the same way in front of anything at which it stops, and with any
bound that its tokens do not exceed. What it takes is told by a relation between the tokens in front
of the expression and those that it leaves.
-/

namespace Debugger.Syntax

namespace Parser

/-! ### What is taken -/

/-- Whether a lexeme belongs to no other: braces belong together, and so do the marks of a ternary
conditional, and an operator with the type behind it. -/
def isFree : Lexeme → Bool
  | .eof | .symbol .lbrace | .symbol .rbrace | .symbol .question | .symbol .colon => false
  | .keyword .isType | .keyword .notIsType | .keyword .asType => false
  | _ => true

/-- Something that holds between the tokens in front of an expression and those that it leaves,
whatever it is built of. -/
class Course (R : List Token → List Token → Prop) : Prop where
  refl (ts : List Token) : R ts ts
  trans {ts us vs : List Token} : R ts us → R us vs → R ts vs
  token {t : Token} (ts : List Token) : isFree t.lexeme = true → R (t :: ts) ts
  braces {l r : Token} {ts rest : List Token} : l.lexeme = .symbol .lbrace →
    r.lexeme = .symbol .rbrace → R ts (r :: rest) → R (l :: ts) rest
  branches {q c : Token} {ts rest : List Token} : q.lexeme = .symbol .question →
    c.lexeme = .symbol .colon → R ts (c :: rest) → R (q :: ts) rest
  typed {t : Token} {ts rest : List Token} {type : Parser TypeRef} {ref : TypeRef} :
    typeBehind t.lexeme = some type → type ts = .ok (ref, rest) → R (t :: ts) rest

/-- The runs read the same, and the relation holds to the tokens that the first one leaves. -/
def Follows {α : Type} (R : List Token → List Token → Prop) (last : Token) (tail : List Token)
    (p q : Parser α) (us : List Token) : Prop :=
  Retraces last tail p q us fun _ vs => R (us ++ [last]) (vs ++ [last])

namespace Follows

variable {α β : Type} {R : List Token → List Token → Prop} [Course R] {last : Token}
  {tail us vs : List Token} {p q : Parser α} {f g : α → Parser β}

theorem pure (a : α) : Follows R last tail (Pure.pure a) (Pure.pure a) us :=
  Retraces.pure (Course.refl _)

/-- Behind tokens that have been taken before. -/
theorem after (h : Follows R last tail p q vs) (hR : R (us ++ [last]) (vs ++ [last])) :
    Retraces last tail p q vs fun _ ws => R (us ++ [last]) (ws ++ [last]) :=
  Retraces.mono h fun _ _ _ hws => Course.trans hR hws

theorem bind (hp : Follows R last tail p q us)
    (hf : ∀ a vs, vs <:+ us → Follows R last tail (f a) (g a) vs) :
    Follows R last tail (p >>= f) (q >>= g) us :=
  Retraces.bind hp fun a vs hvs hR => (hf a vs hvs).after hR

theorem map (hp : Follows R last tail p q us) (k : α → β) :
    Follows R last tail (k <$> p) (k <$> q) us := by
  rw [map_eq_pure_bind, map_eq_pure_bind]
  exact hp.bind fun a vs _ => .pure (k a)

theorem token {t : Token} (ht : isFree t.lexeme = true) (h : Follows R last tail p q vs) :
    Retraces last tail p q vs fun _ ws => R (t :: vs ++ [last]) (ws ++ [last]) :=
  h.after (Course.token (vs ++ [last]) ht)

omit [Course R] in
theorem unexpected (expected : Expected) :
    Follows R last tail (Parser.unexpected expected : Parser α) q us :=
  Retraces.unexpected expected

variable [Endings last tail]

omit [Course R] in
theorem peek {f g : Lexeme → Parser β} (hstop : ∀ op, g (.assign op) = g .eof)
    (h : ∀ l, current (us ++ [last]) = l → Follows R last tail (f l) (g l) us) :
    Follows R last tail (Parser.peek >>= f) (Parser.peek >>= g) us :=
  Retraces.peek hstop h

theorem advance {l : Lexeme} (hl : current (us ++ [last]) = l) (hfree : isFree l = true)
    (h : ∀ vs, vs.length < us.length → Follows R last tail p q vs) :
    Follows R last tail (Parser.advance >>= fun _ => p) (Parser.advance >>= fun _ => q) us := by
  have hne : l ≠ .eof := by
    rintro rfl
    contradiction
  obtain ⟨t, vs, rfl, rfl⟩ := Retraces.exists_cons (Endings.last_eof tail) hl hne
  exact .advance hne ((h vs (Nat.lt_succ_self _)).token hfree)

theorem takeSymbol {s : Symbol} (hfree : isFree (.symbol s) = true) {f g : Bool → Parser β}
    (htaken : ∀ vs, vs.length < us.length → Follows R last tail (f true) (g true) vs)
    (hleft : Follows R last tail (f false) (g false) us) :
    Follows R last tail (Parser.takeSymbol s >>= f) (Parser.takeSymbol s >>= g) us := by
  refine Retraces.takeSymbol ?_ hleft
  rintro t vs rfl ht
  exact (htaken vs (Nat.lt_succ_self _)).token (ht ▸ hfree)

theorem takeWord {word : String} {f g : Bool → Parser β}
    (htaken : ∀ vs, vs.length < us.length → Follows R last tail (f true) (g true) vs)
    (hleft : Follows R last tail (f false) (g false) us) :
    Follows R last tail (Parser.takeWord word >>= f) (Parser.takeWord word >>= g) us := by
  refine Retraces.takeWord ?_ hleft
  rintro t vs rfl ht
  exact (htaken vs (Nat.lt_succ_self _)).token (ht ▸ rfl)

theorem expect {s : Symbol} (hfree : isFree (.symbol s) = true) {f g : Unit → Parser β}
    (h : ∀ vs, vs.length < us.length → Follows R last tail (f ()) (g ()) vs) :
    Follows R last tail (Parser.expect s >>= f) (Parser.expect s >>= g) us := by
  refine Retraces.expect ?_
  rintro t vs rfl ht
  exact (h vs (Nat.lt_succ_self _)).token (ht ▸ hfree)

theorem ident {expected : Expected} {f g : String → Parser β}
    (h : ∀ name vs, vs.length < us.length → Follows R last tail (f name) (g name) vs) :
    Follows R last tail (Parser.ident expected >>= f) (Parser.ident expected >>= g) us := by
  refine Retraces.ident ?_
  rintro t vs name rfl ht
  exact (h name vs (Nat.lt_succ_self _)).token (ht ▸ rfl)

end Follows

/-- The runs read the same over fewer than so many tokens. -/
def Reruns {α : Type} (R : List Token → List Token → Prop) (last : Token) (tail : List Token)
    (n : Nat) (p q : Parser α) : Prop :=
  ∀ us, us.length < n → Follows R last tail p q us

instance : Course Behind where
  refl ts := List.suffix_refl ts
  trans h h' := h'.trans h
  token ts _ := List.suffix_cons _ ts
  braces _ _ h := ((List.suffix_cons _ _).trans h).trans (List.suffix_cons _ _)
  branches _ _ h := ((List.suffix_cons _ _).trans h).trans (List.suffix_cons _ _)
  typed htype hread := (typeBehind_behind htype _ _ _ hread).trans (List.suffix_cons _ _)

/-! ### Primary expressions -/

section Primary

variable {R : List Token → List Token → Prop} [Course R]

theorem lambdaParams_course {ts rest : List Token} {names : List String}
    (h : lambdaParams ts = some (names, rest)) : R ts rest := by
  have htoken {t : Token} {l : Lexeme} (ht : t.lexeme = l) (hl : isFree l = true)
      (ts : List Token) : R (t :: ts) ts :=
    Course.token ts (ht ▸ hl)
  fun_induction lambdaParams ts generalizing names with
  | case1 i s after name hs hi =>
    cases h
    exact Course.trans (htoken hi rfl _) (htoken hs rfl _)
  | case2 i s after name hs hi ih =>
    obtain ⟨⟨more, behind⟩, hmore, he⟩ := Option.map_eq_some_iff.mp h
    cases he
    exact Course.trans (htoken hi rfl _) (Course.trans (htoken hs rfl _) (ih hmore))
  | case3 | case4 => contradiction

variable {last : Token} {tail : List Token} [Endings last tail] {inner inner' : Parser Expr}
  {n : Nat} (hinner : Reruns R last tail n inner inner')

include hinner

/-- From the opening brace of a lambda to the closing one. -/
theorem lambda_reruns : Reruns R last tail (n + 1) (lambda inner) (lambda inner') := by
  intro us hus
  refine Retraces.expect ?_
  rintro l vs rfl hl
  have hvs : vs.length < n := Nat.lt_of_succ_lt_succ hus
  have hbody (params : List String) {ws : List Token} (hws : ws <:+ vs)
      (hR : R (vs ++ [last]) (ws ++ [last])) : Retraces last tail
        (do let body ← inner; expect .rbrace; return Expr.lambda params body)
        (do let body ← inner'; expect .rbrace; return Expr.lambda params body)
        ws fun _ rest => R (l :: vs ++ [last]) (rest ++ [last]) := by
    refine Retraces.bind (hinner ws (Nat.lt_of_le_of_lt hws.length_le hvs)) ?_
    intro body xs _ hxs
    refine Retraces.expect ?_
    rintro r rest rfl hr
    exact .pure (Course.braces hl hr (Course.trans hR hxs))
  have hlast : Stops (current [last]) := Endings.last_stops tail
  refine Retraces.get ?_
  rw [lambdaParams_append hlast, lambdaParams_append (Endings.stops last)]
  cases hparams : lambdaParams vs with
  | none =>
    simp only [Option.map_none, discard_bind]
    refine Retraces.takeSymbol ?_ (hbody [] List.suffix_rfl (Course.refl _))
    rintro t ws rfl ht
    exact hbody [] (List.suffix_cons t ws) (Course.token _ (ht ▸ rfl))
  | some read =>
    obtain ⟨names, ws⟩ := read
    have hread : lambdaParams (vs ++ [last]) = some (names, ws ++ [last]) := by
      rw [lambdaParams_append hlast, hparams]
      rfl
    have hws : ws <:+ vs := lambdaParams_course (R := Behind) hparams
    exact Retraces.set hws (hbody names hws (lambdaParams_course hread))

theorem arguments_reruns {count count' : Nat} {us : List Token} (hus : us.length < n)
    (hcount : us.length < count) (hcount' : us.length < count') :
    Follows R last tail (arguments inner count) (arguments inner' count') us := by
  induction count generalizing us count' with
  | zero => contradiction
  | succ count ih =>
    cases count' with
    | zero => contradiction
    | succ count' =>
      have hmore (arg : Expr) (vs : List Token) (hvs : vs.length ≤ us.length) :
          Follows R last tail
            (do
              if ← takeSymbol .comma then
                return arg :: (← arguments inner count)
              expect .rparen
              return [arg])
            (do
              if ← takeSymbol .comma then
                return arg :: (← arguments inner' count')
              expect .rparen
              return [arg]) vs := by
        refine .takeSymbol rfl (fun ws hws => ?_) ?_
        · have hmore : Follows R last tail (arguments inner count) (arguments inner' count') ws :=
            ih (by omega) (by omega) (by omega)
          exact hmore.bind fun _ _ _ => .pure _
        · exact .expect rfl fun _ _ => .pure _
      refine .takeSymbol rfl (fun vs hvs => ?_) ?_
      · refine ((hinner vs (by omega)).map .spread).bind fun arg ws hws => hmore arg ws ?_
        have := hws.length_le
        omega
      · exact (hinner us hus).bind fun arg ws hws => hmore arg ws hws.length_le

variable {bound bound' : Nat} (hbound : n ≤ bound) (hbound' : n ≤ bound')

include hbound hbound'

theorem callArguments_reruns :
    Reruns R last tail (n + 1) (callArguments inner bound) (callArguments inner' bound') := by
  intro us hus
  have hlambda (args : List Expr) (vs : List Token) (hvs : vs.length ≤ us.length) :
      Follows R last tail (lambdaBehind inner args) (lambdaBehind inner' args) vs := by
    refine .peek (fun _ => rfl) fun l hl => ?_
    split
    · exact (lambda_reruns hinner vs (by omega)).bind fun _ _ _ => .pure _
    · exact .pure args
  refine .takeSymbol rfl (fun vs hvs => ?_) ?_
  · refine .takeSymbol rfl (fun ws hws => ?_) ?_
    · exact hlambda [] ws (by omega)
    · refine (arguments_reruns hinner (by omega) (by omega) (by omega)).bind fun args ws hws => ?_
      have := hws.length_le
      exact hlambda args ws (by omega)
  · exact hlambda [] us (Nat.le_refl _)

theorem named_reruns (name : String) :
    Reruns R last tail (n + 1) (named inner bound name) (named inner' bound' name) := by
  intro us hus
  refine .peek (fun _ => rfl) fun l hl => ?_
  split
  · exact (callArguments_reruns hinner hbound hbound' us hus).bind fun _ _ _ => .pure _
  · exact .pure _

omit hbound hbound' in
theorem conditional_reruns : Reruns R last tail n (conditional inner) (conditional inner') := by
  intro us hus
  refine .expect rfl fun vs hvs => ?_
  refine (hinner vs (by omega)).bind fun condition ws hws => ?_
  have hws := hws.length_le
  refine .expect rfl fun xs hxs => ?_
  refine (hinner xs (by omega)).bind fun yes ys hys => ?_
  have hys := hys.length_le
  refine .peek (fun _ => rfl) fun l hl => ?_
  split
  · refine .advance hl rfl fun zs hzs => ?_
    exact (hinner zs (by omega)).bind fun _ _ _ => .pure _
  · exact Retraces.bind (P := fun _ _ => False) (.unexpected _) fun _ _ _ h => h.elim

theorem primary_reruns :
    Reruns R last tail (n + 1) (primary inner bound) (primary inner' bound') := by
  intro us hus
  refine .peek (fun _ => rfl) fun l hl => ?_
  split
  · exact .advance hl rfl fun _ _ => .pure _
  · exact .advance hl rfl fun _ _ => .pure _
  · exact .advance hl rfl fun _ _ => .pure _
  · exact .advance hl rfl fun vs hvs => conditional_reruns hinner vs (by omega)
  · exact .advance hl rfl fun vs hvs => named_reruns hinner hbound hbound' _ vs (by omega)
  · refine .advance hl rfl fun vs hvs => ?_
    exact (hinner vs (by omega)).bind fun _ _ _ => .expect rfl fun _ _ => .pure _
  · exact lambda_reruns hinner us hus
  · exact .unexpected _

theorem memberOrCall_reruns (target : Expr) (safe : Bool) : Reruns R last tail (n + 1)
    (memberOrCall inner bound target safe) (memberOrCall inner' bound' target safe) := by
  intro us hus
  refine .ident fun name vs hvs => ?_
  have hcall := callArguments_reruns hinner hbound hbound' vs (by omega)
  refine .peek (fun _ => rfl) fun l hl => ?_
  split
  · exact hcall.bind fun _ _ _ => .pure _
  · exact hcall.bind fun _ _ _ => .pure _
  · exact .pure _

end Primary

/-! ### Operators -/

/-- A longer expression has taken a token. -/
def Grows (R : List Token → List Token → Prop) (last : Token) (us : List Token)
    (longer : Option Expr) (vs : List Token) : Prop :=
  R (us ++ [last]) (vs ++ [last]) ∧ (longer.isSome → vs.length < us.length)

section Operators

variable {R : List Token → List Token → Prop} [Course R] {last : Token} {tail us : List Token}
  [Endings last tail]

omit [Endings last tail] in
theorem grows_none : Retraces last tail (pure none) (pure none) us (Grows R last us) :=
  .pure ⟨Course.refl _, nofun⟩

/-- An operator, and what belongs to it. -/
theorem grows_advance {l : Lexeme} (hl : current (us ++ [last]) = l) (hfree : isFree l = true)
    {p q : Parser (Option Expr)}
    (h : ∀ vs, vs.length < us.length → Follows R last tail p q vs) :
    Retraces last tail (advance >>= fun _ => p) (advance >>= fun _ => q) us (Grows R last us) := by
  have hne : l ≠ .eof := by
    rintro rfl
    contradiction
  obtain ⟨t, vs, rfl, rfl⟩ := Retraces.exists_cons (Endings.last_eof tail) hl hne
  refine .advance hne ((h vs (Nat.lt_succ_self _)).mono fun _ ws hws hR => ?_)
  exact ⟨Course.trans (Course.token _ hfree) hR, fun _ => Nat.lt_succ_of_le hws.length_le⟩

/-- An operator, and the type behind it. -/
theorem grows_type {l : Lexeme} (hl : current (us ++ [last]) = l) {type : Parser TypeRef}
    (htype : typeBehind l = some type) {p : Parser (Option Expr)}
    (h : ∀ vs, Retraces last tail p p vs fun _ _ => True)
    (hread : ∀ ts b rest, p ts = .ok (b, rest) → ∃ ref, type ts = .ok (ref, rest)) :
    Retraces last tail (advance >>= fun _ => p) (advance >>= fun _ => p) us (Grows R last us) := by
  have hne : l ≠ .eof := by
    rintro rfl
    contradiction
  obtain ⟨t, vs, rfl, rfl⟩ := Retraces.exists_cons (Endings.last_eof tail) hl hne
  refine .advance hne ((h vs).run.mono fun b ws hws hrun => ?_)
  obtain ⟨ref, href⟩ := hread _ b _ hrun.2
  exact ⟨Course.typed htype href, fun _ => Nat.lt_succ_of_le hws.length_le⟩

variable {inner inner' next next' : Parser Expr} {n : Nat}

theorem suffix_grows (hinner : Reruns R last tail n inner inner') {bound bound' : Nat}
    (hbound : n ≤ bound) (hbound' : n ≤ bound') (hus : us.length < n + 1) (e : Expr) :
    Retraces last tail (suffix inner bound e) (suffix inner' bound' e) us (Grows R last us) := by
  have hmember (safe : Bool) (vs : List Token) (hvs : vs.length < us.length) :
      Follows R last tail (some <$> memberOrCall inner bound e safe)
        (some <$> memberOrCall inner' bound' e safe) vs :=
    (memberOrCall_reruns hinner hbound hbound' e safe vs (by omega)).map some
  refine .peek (fun _ => rfl) fun l hl => ?_
  split
  · exact grows_advance hl rfl (hmember false)
  · exact grows_advance hl rfl (hmember true)
  · refine grows_advance hl rfl fun vs hvs => ?_
    exact (hinner vs (by omega)).bind fun _ _ _ => .expect rfl fun _ _ => .pure _
  · refine grows_type hl rfl (fun vs => ?_) fun ts b rest h => ?_
    · have hcast (safe : Bool) (ws : List Token) : Retraces last tail
          (do return some (Expr.cast e (← typeRef) safe))
          (do return some (Expr.cast e (← typeRef) safe)) ws fun _ _ => True :=
        (typeRef_retraces ws).bind fun _ _ _ _ => .pure trivial
      exact .takeSymbol (fun _ ws _ _ => hcast true ws) (hcast false vs)
    · obtain ⟨safe, vs, hsafe, h⟩ := bind_ok h
      obtain ⟨ref, ws, href, h⟩ := bind_ok h
      cases h
      refine ⟨ref, ?_⟩
      rw [discard_bind]
      simp only [Bind.bind, StateT.bind, hsafe, Except.bind]
      exact href
  · exact grows_none

theorem binaryLevel_stops (r : Nat) {l : Lexeme} (h : Stops l) : binaryLevel r l = none := by
  cases hop : binaryLevel r l with
  | none => rfl
  | some op =>
    have hrank := rank_of_binaryLevel hop
    cases h <;> contradiction

theorem isFree_of_binaryLevel {r : Nat} {l : Lexeme} {op : BinaryOp}
    (h : binaryLevel r l = some op) : isFree l = true := by
  unfold binaryLevel at h
  split at h
  case h_10 => contradiction
  all_goals
    simp only [products, sums, shifts, equalities, bitAnds, bitXors, bitOrs, ands, ors] at h
    split at h <;> first | rfl | contradiction

theorem isFree_of_comparisons {l : Lexeme} {op : BinaryOp} (h : comparisons l = some op) :
    isFree l = true := by
  unfold comparisons at h
  split at h <;> first | rfl | contradiction

theorem isFree_of_unaryOp {l : Lexeme} {op : UnaryOp} (h : unaryOp l = some op) :
    isFree l = true := by
  unfold unaryOp at h
  split at h <;> first | rfl | contradiction

theorem extension_stops {ts : List Token} (hstops : Stops (current ts)) (bound r : Nat)
    (left : Expr) : extension inner bound next r left ts = .ok (none, ts) := by
  unfold extension
  split
  · rw [suffix, peek_run]
    generalize current ts = l at hstops
    cases hstops <;> rfl
  · rw [peek_run]
    generalize current ts = l at hstops
    cases hstops <;> rfl
  · rw [peek_run]
    generalize current ts = l at hstops
    cases hstops <;> rfl
  · rw [peek_run]
    simp only [binaryLevel_stops _ hstops]
    rfl

theorem extension_grows (hinner : Reruns R last tail n inner inner')
    (hnext : Reruns R last tail (n + 1) next next') {bound bound' : Nat} (hbound : n ≤ bound)
    (hbound' : n ≤ bound') (hus : us.length < n + 1) (r : Nat) (left : Expr) :
    Retraces last tail (extension inner bound next r left) (extension inner' bound' next' r left)
      us (Grows R last us) := by
  have hright (k : Expr → Expr) (vs : List Token) (hvs : vs.length < us.length) :
      Follows R last tail (do return some (k (← next))) (do return some (k (← next'))) vs :=
    (hnext vs (by omega)).bind fun _ _ _ => .pure _
  have hcheck {l : Lexeme} (hl : current (us ++ [last]) = l) (htype : typeBehind l = some typeRef)
      (negated : Bool) : Retraces last tail
        (do advance; return some (.typeCheck left (← typeRef) negated))
        (do advance; return some (.typeCheck left (← typeRef) negated)) us (Grows R last us) := by
    refine grows_type hl htype (fun vs => ?_) fun ts b rest h => ?_
    · exact (typeRef_retraces vs).bind fun _ _ _ _ => .pure trivial
    · obtain ⟨ref, vs, href, h⟩ := bind_ok h
      cases h
      exact ⟨ref, href⟩
  unfold extension
  split
  · exact suffix_grows hinner hbound hbound' hus left
  · refine .peek (fun _ => rfl) fun l hl => ?_
    split
    · exact grows_advance hl rfl (hright (.contains left · false))
    · exact grows_advance hl rfl (hright (.contains left · true))
    · exact grows_none
  · refine .peek (fun _ => rfl) fun l hl => ?_
    split
    · exact hcheck hl rfl false
    · exact hcheck hl rfl true
    · split
      · rename_i op hop
        exact grows_advance hl (isFree_of_comparisons hop) (hright (.binary op left ·))
      · exact grows_none
  · refine .peek (fun op => ?_) fun l hl => ?_
    · rw [binaryLevel_stops _ (.assign op), binaryLevel_stops _ .eof]
    · split
      · rename_i op hop
        exact grows_advance hl (isFree_of_binaryLevel hop) (hright (.binary op left ·))
      · exact grows_none

/-- Where nothing goes on, no chain does. -/
theorem chain_stops {extend : Expr → Parser (Option Expr)} {ts : List Token} {e : Expr}
    (h : extend e ts = .ok (none, ts)) (count : Nat) : chain extend count e ts = .ok (e, ts) := by
  cases count with
  | zero => rfl
  | succ count =>
    simp only [chain, Bind.bind, StateT.bind, h, Except.bind]
    rfl

theorem chain_reruns {extend extend' : Expr → Parser (Option Expr)}
    (hstops : ∀ ts, Stops (current ts) → ∀ e,
      extend e ts = .ok (none, ts) ∧ extend' e ts = .ok (none, ts))
    (h : ∀ us, us.length < n + 1 → ∀ e,
      Retraces last tail (extend e) (extend' e) us (Grows R last us))
    {count count' : Nat} (hcount : us.length ≤ count) (hcount' : us.length ≤ count')
    (hus : us.length < n + 1) (e : Expr) :
    Follows R last tail (chain extend count e) (chain extend' count' e) us := by
  have hend (count count' : Nat) (e : Expr) :
      Follows R last tail (chain extend count e) (chain extend' count' e) [] := by
    have hfirst : chain extend count e ([] ++ [last]) = .ok (e, [] ++ [last]) :=
      chain_stops (hstops [last] (Endings.last_stops tail) e).1 count
    have hsecond := chain_stops (hstops tail (Endings.stops last) e).2 count'
    exact .reads hfirst List.suffix_rfl hsecond (Course.refl _)
  induction count generalizing count' us e with
  | zero =>
    obtain rfl : us = [] := List.eq_nil_of_length_eq_zero (Nat.le_zero.mp hcount)
    exact hend 0 count' e
  | succ count ih =>
    cases us with
    | nil => exact hend (count + 1) count' e
    | cons t us =>
      cases count' with
      | zero => contradiction
      | succ count' =>
        refine Retraces.bind (h _ hus e) fun longer vs _ ⟨hR, hlt⟩ => ?_
        cases longer with
        | none => exact .pure hR
        | some longer =>
          have hlt := hlt rfl
          exact (ih (by omega) (by omega) (by omega) longer).after hR

/-! ### Levels -/

omit [Course R] [Endings last tail] in
theorem unary_stops {ts : List Token} (h : Stops (current ts)) (count : Nat) :
    unary next count ts = next ts := by
  cases count with
  | zero => rfl
  | succ count =>
    have hnone : unaryOp (current ts) = none := by
      generalize current ts = l at h
      cases h <;> rfl
    rw [unary, peek_run, hnone]

theorem unary_reruns (hnext : Reruns R last tail (n + 1) next next') {count count' : Nat}
    (hcount : us.length ≤ count) (hcount' : us.length ≤ count') (hus : us.length < n + 1) :
    Follows R last tail (unary next count) (unary next' count') us := by
  have htail : Stops (current tail) := Endings.stops last
  have hend (count count' : Nat) : Follows R last tail (unary next count) (unary next' count') [] :=
    Retraces.congr (unary_stops (Endings.last_stops tail) count) (unary_stops htail count')
      (hnext [] (Nat.succ_pos n))
  induction count generalizing count' us with
  | zero =>
    obtain rfl : us = [] := List.eq_nil_of_length_eq_zero (Nat.le_zero.mp hcount)
    exact hend 0 count'
  | succ count ih =>
    cases us with
    | nil => exact hend (count + 1) count'
    | cons t us =>
      cases count' with
      | zero => contradiction
      | succ count' =>
        refine .peek (fun _ => rfl) fun l hl => ?_
        split
        · rename_i op hop
          refine .advance hl (isFree_of_unaryOp hop) fun vs hvs => ?_
          simp only [List.length_cons] at hvs hcount hcount' hus
          exact (ih (by omega) (by omega) (by omega)).map _
        · exact hnext _ hus

theorem rangeKind_reruns : Follows R last tail rangeKind rangeKind us := by
  refine .takeSymbol rfl (fun _ _ => .pure _) ?_
  refine .takeWord (fun _ _ => .pure _) ?_
  exact .takeWord (fun _ _ => .pure _) (.pure _)

theorem range_reruns (hnext : Reruns R last tail (n + 1) next next') :
    Reruns R last tail (n + 1) (range next) (range next') := by
  intro us hus
  refine (hnext us hus).bind fun first vs hvs => ?_
  have hvs := hvs.length_le
  refine rangeKind_reruns.bind fun kind ws hws => ?_
  have hws := hws.length_le
  cases kind with
  | none => exact .pure first
  | some kind =>
    refine (hnext ws (by omega)).bind fun last xs hxs => ?_
    have hxs := hxs.length_le
    refine .takeWord (fun ys hys => ?_) (.pure _)
    exact (hnext ys (by omega)).bind fun _ _ _ => .pure _

omit [Course R] [Endings last tail] in
/-- Where nothing goes on behind the left side, there is no right one. -/
theorem elvis_stops {ts rest : List Token} {e : Expr} (h : next ts = .ok (e, rest))
    (hstops : Stops (current rest)) (count : Nat) : elvis next count ts = .ok (e, rest) := by
  cases count with
  | zero => exact h
  | succ count =>
    have hnone : takeSymbol .elvis rest = .ok (false, rest) := by
      rw [takeSymbol, peek_run]
      generalize current rest = l at hstops
      cases hstops <;> rfl
    simp only [elvis, Bind.bind, StateT.bind, h, Except.bind, hnone]
    rfl

theorem elvis_reruns (hnext : Reruns R last tail (n + 1) next next') {count count' : Nat}
    (hcount : us.length ≤ count) (hcount' : us.length ≤ count') (hus : us.length < n + 1) :
    Follows R last tail (elvis next count) (elvis next' count') us := by
  have htail : Stops (current tail) := Endings.stops last
  have hend (count count' : Nat) : Follows R last tail (elvis next count) (elvis next' count') [] := by
    cases hnext [] (Nat.succ_pos n) with
    | @reads e vs first behind second holds =>
      obtain rfl := List.suffix_nil.mp behind
      exact .reads (elvis_stops first (Endings.last_stops tail) count) behind
        (elvis_stops second htail count') holds
    | fails first given place =>
      refine .fails ?_ given place
      cases count with
      | zero => exact first
      | succ count => simp only [elvis, Bind.bind, StateT.bind, first, Except.bind]
  induction count generalizing count' us with
  | zero =>
    obtain rfl : us = [] := List.eq_nil_of_length_eq_zero (Nat.le_zero.mp hcount)
    exact hend 0 count'
  | succ count ih =>
    cases us with
    | nil => exact hend (count + 1) count'
    | cons t us =>
      cases count' with
      | zero => contradiction
      | succ count' =>
        refine (hnext _ hus).bind fun left vs hvs => ?_
        have hvs := hvs.length_le
        refine .takeSymbol rfl (fun ws hws => ?_) (.pure left)
        simp only [List.length_cons] at hvs hcount hcount' hus
        exact (ih (by omega) (by omega) (by omega)).bind fun _ _ _ => .pure _

/-- A condition alone, or with the branches behind it. -/
theorem ternary_reruns (hinner : Reruns R last tail n inner inner')
    (hnext : Reruns R last tail (n + 1) next next') (bound bound' count count' : Nat) :
    Reruns R last tail (n + 1) (layer inner bound next count 16)
      (layer inner' bound' next' count' 16) := by
  intro us hus
  refine Retraces.bind (hnext us hus) fun condition vs hvs hR => ?_
  refine Retraces.takeSymbol ?_ (.pure hR)
  rintro q ws rfl hq
  have hws : ws.length < n := by
    have := hvs.length_le
    simp only [List.length_cons] at this
    omega
  refine Retraces.bind (hinner ws hws) fun yes xs hxs hR' => ?_
  refine Retraces.expect ?_
  rintro c ys rfl hc
  have hys : ys.length < n := by
    have := hxs.length_le
    simp only [List.length_cons] at this
    omega
  refine Retraces.bind (hinner ys hys) fun no zs _ hR'' => .pure ?_
  exact Course.trans hR (Course.trans (Course.branches hq hc hR') hR'')

theorem layer_reruns (hinner : Reruns R last tail n inner inner')
    (hnext : Reruns R last tail (n + 1) next next') {bound bound' count count' : Nat}
    (hbound : n ≤ bound) (hbound' : n ≤ bound') (hcount : n ≤ count) (hcount' : n ≤ count')
    (r : Nat) : Reruns R last tail (n + 1) (layer inner bound next count r)
      (layer inner' bound' next' count' r) := by
  intro us hus
  unfold layer
  split
  · exact primary_reruns hinner hbound hbound' us hus
  · exact unary_reruns hnext (by omega) (by omega) hus
  · exact range_reruns hnext us hus
  · exact elvis_reruns hnext (by omega) (by omega) hus
  · exact ternary_reruns hinner hnext bound bound' count count' us hus
  · refine (hnext us hus).bind fun e vs hvs => ?_
    have hvs := hvs.length_le
    have hextends (ws : List Token) (hws : ws.length < n + 1) (e : Expr) :=
      extension_grows hinner hnext hbound hbound' hws r e
    refine chain_reruns (fun ts hstops e => ?_) hextends (by omega) (by omega) (by omega) e
    exact ⟨extension_stops hstops bound r e, extension_stops hstops bound' r e⟩

theorem level_reruns (hinner : Reruns R last tail n inner inner') {bound bound' : Nat}
    (hbound : n ≤ bound) (hbound' : n ≤ bound') (r : Nat) :
    Reruns R last tail (n + 1) (level inner bound bound r) (level inner' bound' bound' r) := by
  induction r with
  | zero => exact primary_reruns hinner hbound hbound'
  | succ r ih => exact layer_reruns hinner ih hbound hbound' hbound hbound' (r + 1)

/-- An expression of fewer tokens than its bound is read in both runs. -/
theorem expression_reruns {n bound bound' : Nat} (hbound : n ≤ bound) (hbound' : n ≤ bound') :
    Reruns R last tail n (expression bound) (expression bound') := by
  induction n generalizing bound bound' with
  | zero => exact fun _ hus => absurd hus (Nat.not_lt_zero _)
  | succ n ih =>
    obtain ⟨bound, rfl⟩ := Nat.exists_eq_succ_of_ne_zero (Nat.ne_zero_of_lt hbound)
    obtain ⟨bound', rfl⟩ := Nat.exists_eq_succ_of_ne_zero (Nat.ne_zero_of_lt hbound')
    have hbound := Nat.le_of_succ_le_succ hbound
    have hbound' := Nat.le_of_succ_le_succ hbound'
    rw [expression, expression, ternary_eq, ternary_eq]
    exact level_reruns (ih hbound hbound') hbound hbound' 16

end Operators

end Parser

/-! ### Whole texts -/

open Debugger.Syntax.Parser

theorem parseTokens_of_error {ts : List Token} {cause : SyntaxError}
    (h : expression ts.length ts = .error cause) : parseTokens ts = .error cause := by
  change (fun read => read.1) <$> whole ts.length ts = _
  simp only [whole, Bind.bind, StateT.bind, h, Except.bind]
  rfl

theorem whole_run {bound : Nat} {ts rest : List Token} {e : Expr}
    (h : expression bound ts = .ok (e, rest)) :
    whole bound ts = (match current rest with
      | .eof => pure e
      | _ => unexpected .endOfText : Parser Expr) rest := by
  simp only [whole, Bind.bind, StateT.bind, h, Except.bind]
  rfl

/-- Behind an expression the end may stand. -/
theorem parseTokens_of_end {ts rest : List Token} {e : Expr}
    (h : expression ts.length ts = .ok (e, rest)) (hrest : current rest = .eof) :
    parseTokens ts = .ok e := by
  change (fun read => read.1) <$> whole ts.length ts = _
  rw [whole_run h, hrest]
  rfl

/-- Nothing else may stand behind an expression. -/
theorem parseTokens_of_more {ts rest : List Token} {e : Expr} {t : Token}
    (h : expression ts.length ts = .ok (e, t :: rest)) (ht : t.lexeme ≠ .eof) :
    ∃ cause, parseTokens ts = .error cause ∧ cause.offset = t.offset ∧
      ∀ op, t.lexeme = .assign op → cause = .assignment t.offset := by
  change ∃ cause, (fun read => read.1) <$> whole ts.length ts = .error cause ∧ _
  rw [whole_run h]
  obtain ⟨l, offset⟩ := t
  cases l with
  | assign op => exact ⟨_, rfl, rfl, fun _ _ => rfl⟩
  | literal | template | ident | keyword | symbol => exact ⟨_, rfl, rfl, nofun⟩
  | eof => contradiction

/-- Tokens up to the end, which is the last of them and no other. -/
structure Ended (front : List Token) (last : Token) : Prop where
  last_eof : last.lexeme = .eof
  front_ne : ∀ t ∈ front, t.lexeme ≠ .eof

namespace Ended

variable {front : List Token} {last : Token} (h : Ended front last)

include h

/-- What is left of the tokens in front of the end is another token, or nothing. -/
theorem current_ne {t : Token} {left : List Token} (hleft : t :: left <:+ front) :
    t.lexeme ≠ .eof :=
  h.front_ne t (hleft.mem List.mem_cons_self)

theorem reruns (R : List Token → List Token → Prop) [Course R] {tail : List Token}
    (htail : Stops (current tail)) {bound : Nat} (hbound : front.length < bound) :
    Follows R last tail (expression (front ++ [last]).length) (expression bound) front := by
  have hendings : Endings last tail := ⟨h.last_eof, htail⟩
  have hlength : front.length < (front ++ [last]).length := by simp
  exact expression_reruns hlength hbound front (Nat.lt_succ_self _)

/-- The tokens of an expression are read in the same way in front of anything at which an expression
stops. -/
theorem reads {e : Expr} (hparse : parseTokens (front ++ [last]) = .ok e)
    (R : List Token → List Token → Prop) [Course R] {tail : List Token}
    (htail : Stops (current tail)) {bound : Nat} (hbound : front.length < bound) :
    R (front ++ [last]) [last] ∧ expression bound (front ++ tail) = .ok (e, tail) := by
  cases h.reruns R htail hbound with
  | fails first => exact absurd (hparse.symm.trans (parseTokens_of_error first)) (by simp)
  | @reads e' left first behind second holds =>
    cases left with
    | nil =>
      obtain rfl : e = e' :=
        Except.ok.inj (hparse.symm.trans (parseTokens_of_end first h.last_eof))
      exact ⟨holds, second⟩
    | cons t left =>
      obtain ⟨cause, herror, -⟩ := parseTokens_of_more first (h.current_ne behind)
      exact absurd (hparse.symm.trans herror) (by simp)

/-- A failure is at one of the tokens. -/
theorem fails {cause : SyntaxError} (hparse : parseTokens (front ++ [last]) = .error cause) :
    ∃ t ∈ front ++ [last], cause.offset = t.offset := by
  have hlast : Stops (current [last]) := by
    rw [current, h.last_eof]
    exact .eof
  cases h.reruns Behind hlast (Nat.lt_succ_self _) with
  | @fails cause' t first given place =>
    obtain rfl := Except.error.inj ((parseTokens_of_error first).symm.trans hparse)
    exact ⟨t, given, place⟩
  | @reads e left first behind =>
    cases left with
    | nil => exact absurd (hparse.symm.trans (parseTokens_of_end first h.last_eof)) (by simp)
    | cons t left =>
      obtain ⟨cause', herror, hoffset, -⟩ := parseTokens_of_more first (h.current_ne behind)
      obtain rfl := Except.error.inj (herror.symm.trans hparse)
      exact ⟨t, List.mem_append_left _ (behind.mem List.mem_cons_self), hoffset⟩

/-- An assignment operator behind an expression is refused as such. -/
theorem assignment {e : Expr} (hparse : parseTokens (front ++ [last]) = .ok e) {t : Token}
    {op : Assignment} (ht : t.lexeme = .assign op) (more : List Token) :
    parseTokens (front ++ t :: more) = .error (.assignment t.offset) := by
  have hstops : Stops (current (t :: more)) := by
    rw [current, ht]
    exact .assign op
  have hbound : front.length < (front ++ t :: more).length := by simp
  obtain ⟨cause, herror, -, hcause⟩ :=
    parseTokens_of_more (h.reads hparse Behind hstops hbound).2 (by simp [ht])
  rw [herror, hcause op ht]

end Ended

end Debugger.Syntax
