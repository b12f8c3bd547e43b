import Debugger.Eval.Evaluate
import Debugger.Proofs.HoleSources

/-!
Templates read the sources of their holes again as expressions, which may have templates with holes
themselves. Each source is shorter than the one it is found in, so this comes to an end, and the
depth that a run allows for is never reached.
-/

namespace Debugger

open Syntax

/-- Where the one source is evaluated as a hole, the other one may be. -/
def Reenters (outer inner : String) : Prop :=
  ∃ e, parse outer = .ok e ∧ inner ∈ e.holes

theorem Reenters.part {outer inner : String} (h : Reenters outer inner) :
    inner.toList <:+: outer.toList ∧ inner.utf8ByteSize + 5 ≤ outer.utf8ByteSize := by
  obtain ⟨e, he, hinner⟩ := h
  exact (parse_embeds he inner hinner).part

/-- Sources that are found one in the other are as many as fives fit into the first, and one. -/
theorem length_reenters {source : String} {chain : List String}
    (h : (source :: chain).IsChain Reenters) :
    (source :: chain).length ≤ 1 + source.utf8ByteSize / 5 := by
  induction chain generalizing source with
  | nil => simp
  | cons inner chain ih =>
    obtain ⟨hinner, hchain⟩ := List.isChain_cons_cons.mp h
    have hsize := hinner.part.2
    have hlength := ih hchain
    rw [List.length_cons]
    omega

namespace Scope

/-! ### Evaluation and holes -/

section Congruence

variable (scope : Scope) {hole hole' : String → Eval Value}

theorem templateText_congr {parts : List TemplatePart}
    (h : ∀ source ∈ holesAmong parts, hole source = hole' source) :
    scope.templateText hole parts = scope.templateText hole' parts := by
  induction parts with
  | nil => rfl
  | cons part parts ih =>
    cases part with
    | text s | name n =>
      simp only [templateText]
      rw [ih h]
    | hole source =>
      obtain ⟨hsource, hparts⟩ := List.forall_mem_cons.mp h
      simp only [templateText]
      rw [hsource, ih hparts]

mutual

/-- What an expression evaluates to depends on what the holes in it do, and on no others. -/
theorem evaluate_congr (e : Expr) (h : ∀ source ∈ e.holes, hole source = hole' source) :
    scope.evaluate hole e = scope.evaluate hole' e := by
  cases e with
  | literal | name | this | lambda | spread => rfl
  | unary op e =>
    simp only [evaluate]
    rw [evaluate_congr e h]
  | binary op l r =>
    obtain ⟨hl, hr⟩ := List.forall_mem_append.mp h
    cases op <;> simp only [evaluate, evaluate_congr l hl, evaluate_congr r hr]
  | member target name safe =>
    simp only [evaluate]
    rw [evaluate_congr target h]
  | index target i =>
    obtain ⟨htarget, hi⟩ := List.forall_mem_append.mp h
    simp only [evaluate]
    rw [evaluate_congr target htarget, evaluate_congr i hi]
  | call receiver name args safe =>
    cases receiver with
    | none =>
      simp only [evaluate]
      rw [evaluateArgs_congr args h]
    | some receiver =>
      obtain ⟨hreceiver, hargs⟩ := List.forall_mem_append.mp h
      simp only [evaluate]
      rw [evaluate_congr receiver hreceiver, evaluateArgs_congr args hargs]
  | typeCheck e type negated =>
    simp only [evaluate]
    rw [evaluate_congr e h]
  | cast e type safe =>
    simp only [evaluate]
    rw [evaluate_congr e h]
  | conditional c yes no =>
    obtain ⟨hboth, hno⟩ := List.forall_mem_append.mp h
    obtain ⟨hc, hyes⟩ := List.forall_mem_append.mp hboth
    simp only [evaluate]
    rw [evaluate_congr c hc, evaluate_congr yes hyes, evaluate_congr no hno]
  | construct type args =>
    simp only [evaluate]
    rw [evaluateArgs_congr args h]
  | elvis l r =>
    obtain ⟨hl, hr⟩ := List.forall_mem_append.mp h
    simp only [evaluate]
    rw [evaluate_congr l hl, evaluate_congr r hr]
  | template parts =>
    simp only [evaluate]
    rw [templateText_congr scope h]
  | range kind a b step =>
    cases step with
    | none =>
      obtain ⟨ha, hb⟩ := List.forall_mem_append.mp h
      simp only [evaluate]
      rw [evaluate_congr a ha, evaluate_congr b hb]
    | some s =>
      obtain ⟨hboth, hs⟩ := List.forall_mem_append.mp h
      obtain ⟨ha, hb⟩ := List.forall_mem_append.mp hboth
      simp only [evaluate]
      rw [evaluate_congr a ha, evaluate_congr b hb, evaluate_congr s hs]
  | contains e collection negated =>
    obtain ⟨he, hcollection⟩ := List.forall_mem_append.mp h
    simp only [evaluate]
    rw [evaluate_congr e he, evaluate_congr collection hcollection]

theorem evaluateArgs_congr (es : List Expr)
    (h : ∀ source ∈ Expr.holesOf es, hole source = hole' source) :
    scope.evaluateArgs hole es = scope.evaluateArgs hole' es := by
  cases es with
  | nil => rfl
  | cons e es =>
    obtain ⟨he, hes⟩ := List.forall_mem_append.mp h
    cases e
    case spread e =>
      simp only [evaluateArgs]
      rw [evaluate_congr e he, evaluateArgs_congr es hes]
    all_goals
      simp only [evaluateArgs]
      rw [evaluate_congr _ he, evaluateArgs_congr es hes]

end

end Congruence

/-- The value of a source that is read as an expression, with the sources in its own holes. -/
def runSource (scope : Scope) (source : String) : Eval Value :=
  match parse source with
  | .error cause => throw (.template cause)
  | .ok e => scope.run e

/-- A source has the same value for every depth that leaves one level for each five bytes of it and
one more. -/
theorem evaluateHole_deep (scope : Scope) {source : String} {depth : Nat}
    (h : source.utf8ByteSize / 5 < depth) :
    scope.evaluateHole depth source = scope.runSource source := by
  induction hsize : source.utf8ByteSize using Nat.strongRecOn generalizing source depth with
  | ind size ih =>
    obtain ⟨depth, rfl⟩ := Nat.exists_eq_add_one_of_ne_zero (Nat.ne_zero_of_lt h)
    rw [evaluateHole, runSource]
    cases hparse : parse source with
    | error cause => rfl
    | ok e =>
      refine evaluate_congr scope e fun inner hinner => ?_
      have hshort := (parse_embeds hparse inner hinner).part.2
      have hless : inner.utf8ByteSize < size := by omega
      exact (ih _ hless (by omega) rfl).trans (ih _ hless (Nat.lt_succ_self _) rfl).symm

theorem run_eq (scope : Scope) (e : Expr) : scope.run e = scope.evaluate scope.runSource e :=
  evaluate_congr scope e fun _ _ => evaluateHole_deep scope (Nat.lt_succ_self _)

end Scope

/-- Reading holes again comes to an end. Each hole in the tree of a text is a part of the text and
five bytes shorter; so from a hole of any tree, holes in holes are read on at most one level for
each five bytes of its source, and one more. An evaluation reads no holes but those of its tree, and
its value is the one that it would have if there were no bound on the levels. -/
theorem reentry_founded :
    (∀ text e, parse text = .ok e → ∀ source ∈ e.holes,
        source.toList <:+: text.toList ∧ source.utf8ByteSize + 5 ≤ text.utf8ByteSize) ∧
      (∀ (e : Expr), ∀ source ∈ e.holes, ∀ chain, (source :: chain).IsChain Reenters →
        (source :: chain).length ≤ 1 + source.utf8ByteSize / 5) ∧
      (∀ (scope : Scope) (e : Expr) (hole hole' : String → Eval Value),
        (∀ source ∈ e.holes, hole source = hole' source) →
          scope.evaluate hole e = scope.evaluate hole' e) ∧
      ∀ (scope : Scope) (e : Expr), scope.run e = scope.evaluate (fun source =>
        match parse source with
        | .error cause => throw (.template cause)
        | .ok inner => scope.run inner) e :=
  ⟨fun _ _ h source hsource => (parse_embeds h source hsource).part,
    fun _ _ _ _ h => length_reenters h,
    fun scope e _ _ h => scope.evaluate_congr e h,
    fun scope e => scope.run_eq e⟩

theorem exists_parse {text : String} {sources : List String}
    (h : (parse text).toOption.map Expr.holes = some sources) :
    ∃ e, parse text = .ok e ∧ e.holes = sources := by
  obtain ⟨e, he, hholes⟩ := Option.map_eq_some_iff.mp h
  refine ⟨e, ?_, hholes⟩
  cases hparse : parse text with
  | error cause =>
    rw [hparse] at he
    contradiction
  | ok e' =>
    rw [hparse] at he
    rw [Option.some.inj he]

/-- A template in a hole of a template. -/
theorem reentry_founded_nested :
    let outer := "\"$\x7b\"$\x7bx\x7d\" + y\x7d\""
    let inner := "\"$\x7bx\x7d\" + y"
    (inner.toList <:+: outer.toList ∧ inner.utf8ByteSize + 5 ≤ outer.utf8ByteSize) ∧
      [inner, "x"].IsChain Reenters ∧ [inner, "x"].length ≤ 1 + inner.utf8ByteSize / 5 := by
  intro outer inner
  obtain ⟨tree, houter, htree⟩ : ∃ e, parse outer = .ok e ∧ e.holes = [inner] :=
    exists_parse (by decide +kernel)
  obtain ⟨nested, hinner, hnested⟩ : ∃ e, parse inner = .ok e ∧ e.holes = ["x"] :=
    exists_parse (by decide +kernel)
  have hmem : inner ∈ tree.holes := htree ▸ List.mem_singleton_self inner
  have hchain : [inner, "x"].IsChain Reenters :=
    List.isChain_pair.mpr ⟨nested, hinner, hnested ▸ List.mem_singleton_self "x"⟩
  exact ⟨reentry_founded.1 outer tree houter inner hmem, hchain,
    reentry_founded.2.1 tree inner hmem ["x"] hchain⟩

end Debugger
