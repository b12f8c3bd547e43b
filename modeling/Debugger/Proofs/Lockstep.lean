import Debugger.Proofs.EvaluationFrame

/-!
Two conversations side by side: on links that are related they end alike, with related results, and
leave related links behind.
-/

namespace Debugger

/-- On related links both conversations succeed, or both fail with the same error. What they return
is related, and so are the links they leave behind. -/
def Lockstep (S : Link → Link → Prop) {ε α β : Type} (Q : α → β → Prop) (x : EStateM ε Link α)
    (y : EStateM ε Link β) : Prop :=
  ∀ l l', S l l' → match x l, y l' with
    | .ok a l₁, .ok b l₁' => Q a b ∧ S l₁ l₁'
    | .error e l₁, .error e' l₁' => e = e' ∧ S l₁ l₁'
    | _, _ => False

/-- A conversation that runs the same on both links. -/
def Parallel (S : Link → Link → Prop) {ε α : Type} (x : EStateM ε Link α) : Prop :=
  Lockstep S Eq x x

/-- What two calls answer: related results, or the same fault. -/
def Alike {α β : Type} (Q : α → β → Prop) : Except Fault α → Except Fault β → Prop
  | .ok a, .ok d => Q a d
  | .error fault, .error fault' => fault = fault'
  | _, _ => False

theorem Alike.refl {α : Type} (r : Except Fault α) : Alike Eq r r := by
  cases r <;> exact Eq.refl _

namespace Lockstep

variable {S : Link → Link → Prop} {ε α β γ δ : Type} {Q : α → β → Prop} {Q' : γ → δ → Prop}
  {x : EStateM ε Link α} {y : EStateM ε Link β}

theorem pure {a : α} {b : β} (h : Q a b) :
    Lockstep S Q (Pure.pure a : EStateM ε Link α) (Pure.pure b) :=
  fun _ _ hl => ⟨h, hl⟩

theorem throw (e : EvalError) : Lockstep S Q (throw e : Eval α) (MonadExcept.throw e : Eval β) :=
  fun _ _ hl => ⟨rfl, hl⟩

theorem bind {f : α → EStateM ε Link γ} {g : β → EStateM ε Link δ} (hx : Lockstep S Q x y)
    (hf : ∀ a b, Q a b → Lockstep S Q' (f a) (g b)) : Lockstep S Q' (x >>= f) (y >>= g) := by
  intro l l' hl
  have hrun := hx l l' hl
  simp only [Bind.bind, EStateM.bind]
  cases hxl : x l with
  | ok a l₁ =>
    cases hyl : y l' with
    | ok b l₁' =>
      simp only [hxl, hyl] at hrun
      exact hf a b hrun.1 l₁ l₁' hrun.2
    | error e' l₁' =>
      simp only [hxl, hyl] at hrun
  | error e l₁ =>
    cases hyl : y l' with
    | ok b l₁' => simp only [hxl, hyl] at hrun
    | error e' l₁' =>
      simp only [hxl, hyl] at hrun
      exact hrun

theorem lift {x : Remote α} {y : Remote β} (hx : Lockstep S Q x y) :
    Lockstep S Q (liftM x : Eval α) (liftM y : Eval β) := by
  intro l l' hl
  have hrun := hx l l' hl
  simp only [liftM, monadLift, MonadLift.monadLift]
  cases hxl : x l <;> cases hyl : y l' <;> simp only [hxl, hyl] at hrun ⊢
  · exact hrun
  · exact ⟨congrArg EvalError.ofFault hrun.1, hrun.2⟩

theorem attempt {x : Eval α} (hx : Parallel S x) : Parallel S x.attempt := by
  intro l l' hl
  have hrun := hx l l' hl
  simp only [Eval.attempt]
  cases hxl : x l <;> cases hyl : x l' <;> simp only [hxl, hyl] at hrun ⊢
  · exact ⟨congrArg _ hrun.1, hrun.2⟩
  · exact ⟨congrArg _ hrun.1, hrun.2⟩

theorem mono {R : α → β → Prop} (hx : Lockstep S Q x y) (hR : ∀ a b, Q a b → R a b) :
    Lockstep S R x y := by
  intro l l' hl
  have hrun := hx l l' hl
  cases hxl : x l <;> cases hyl : y l' <;> simp only [hxl, hyl] at hrun ⊢
  · exact ⟨hR _ _ hrun.1, hrun.2⟩
  · exact hrun

/-- What comes after conversations with the same result may depend on it. -/
theorem after {x y : EStateM ε Link α} {f : α → EStateM ε Link γ} {g : α → EStateM ε Link δ}
    (hx : Lockstep S Eq x y) (hf : ∀ a, Lockstep S Q' (f a) (g a)) :
    Lockstep S Q' (x >>= f) (y >>= g) :=
  hx.bind fun a _ hab => hab ▸ hf a

theorem map {f : α → γ} {g : β → δ} (hx : Lockstep S Q x y) (hf : ∀ a b, Q a b → Q' (f a) (g b)) :
    Lockstep S Q' (f <$> x) (g <$> y) := by
  rw [map_eq_pure_bind, map_eq_pure_bind]
  exact hx.bind fun a b hab => .pure (hf a b hab)

/-- With equal results, the outcomes are equal. -/
theorem outcome_eq {x y : EStateM ε Link α} (h : Lockstep S Eq x y) {l l' : Link} (hl : S l l') :
    (Link.outcome x l).1 = (Link.outcome y l').1 := by
  have hrun := h l l' hl
  simp only [Link.outcome]
  cases hxl : x l <;> cases hyl : y l' <;> simp only [hxl, hyl] at hrun ⊢
  · rw [hrun.1]
  · rw [hrun.1]

end Lockstep

end Debugger
