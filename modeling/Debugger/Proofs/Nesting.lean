import Debugger.Eval.Invoke
import Debugger.Proofs.Calls

/-!
Boxes in boxes. Showing a box and passing it go from a box to the object in it, and do the rest at
once. So they come to an end just if the boxes do.
-/

namespace Debugger

/-! ### Conversations that end -/

namespace Eval

/-- However it comes out, the conversation comes to an end. -/
def Ends {α : Type} (x : Eval α) : Prop :=
  ∀ l l', x l ≠ .error .endless l'

section

variable {α β : Type} {x : Eval α} {f : α → Eval β}

theorem ends_pure (a : α) : Ends (pure a : Eval α) :=
  fun _ _ h => nomatch h

theorem ends_throw {e : EvalError} (he : e ≠ .endless) : Ends (throw e : Eval α) := by
  intro l l' h
  cases h
  exact he rfl

/-- What does not end comes after what does. -/
theorem Ends.endless (hx : Ends x) {l l' : Link} (h : (x >>= f) l = .error .endless l') :
    ∃ a l₁, x l = .ok a l₁ ∧ f a l₁ = .error .endless l' :=
  (error_of_bind h).resolve_left (hx l l')

theorem Ends.bind (hx : Ends x) (hf : ∀ a, Ends (f a)) : Ends (x >>= f) := by
  intro l l' h
  obtain ⟨a, l₁, -, hl⟩ := hx.endless h
  exact hf a l₁ l' hl

theorem Ends.map {f : α → β} (hx : Ends x) : Ends (f <$> x) := by
  intro l l' h
  simp only [Functor.map, EStateM.map] at h
  split at h
  · cases h
  · rename_i hl
    cases h
    exact hx _ _ hl

theorem ends_call (x : Remote α) : Ends (liftM x : Eval α) := by
  intro l l' h
  simp only [liftM, monadLift, MonadLift.monadLift] at h
  split at h
  · cases h
  · rename_i fault _ _
    cases fault <;> cases h

theorem Ends.attempt? (hx : Ends x) : Ends x.attempt? := by
  intro l l' h
  simp only [Eval.attempt?, Eval.attempt, Bind.bind, EStateM.bind] at h
  cases hl : x l with
  | ok a l₁ =>
    rw [hl] at h
    cases h
  | error e l₁ =>
    rw [hl] at h
    cases e
    case endless => exact hx _ _ hl
    all_goals cases h

end

theorem ends_ofDatum (d : Datum) : Ends (ofDatum d) := by
  cases d with
  | string id => exact (ends_call _).bind fun _ => ends_pure _
  | null | void | primitive | array | object => exact ends_pure _

theorem ends_runtimeTypeName (id : ObjectId) : Ends (runtimeTypeName id) :=
  (ends_call _).attempt?.bind fun _ => ends_pure _

theorem ends_typeNameOf (v : Value) : Ends (typeNameOf v) := by
  cases v with
  | array id | object id => exact ends_runtimeTypeName id
  | null | void | primitive | text | range | placeholder => exact ends_pure _

/-- Without arguments there are no types to walk through. -/
theorem ends_selectOverload (methods : List Method) : Ends (selectOverload methods []) := by
  have hcheapest (ms : List Method) (best : Option (Cost × Method)) :
      Ends (cheapest [] best ms) := by
    induction ms generalizing best with
    | nil => exact ends_pure _
    | cons m ms ih =>
      refine Ends.bind (ends_pure _) fun cost => ?_
      split
      · split <;> exact ih _
      · exact ih _
  exact hcheapest _ _

end Eval

namespace Scope

open Eval

variable (scope : Scope)

theorem ends_ensureInvocable : Ends scope.ensureInvocable := by
  have hguard : Ends (do
      unless ← Remote.threadSuspended scope.thread do
        throw (.notSuspended scope.thread)) := by
    refine (ends_call _).bind fun suspended => ?_
    cases suspended with
    | false => exact ends_throw (by simp)
    | true => exact ends_pure ()
  unfold ensureInvocable
  cases scope.settings.allowInvocation with
  | false =>
    have hforbidden : Ends (throw (.unsupported .invocationDisabled) : Eval PUnit) :=
      ends_throw (by simp)
    exact hforbidden.bind fun _ => hguard
  | true => exact hguard

theorem ends_unboxByAccessor (id : ObjectId) (type : TypeId) (kind : PrimitiveKind) :
    Ends (scope.unboxByAccessor id type kind) := by
  refine (ends_call _).bind fun methods => ?_
  split
  · exact scope.ends_ensureInvocable.bind fun _ => (ends_call _).bind fun _ => ends_ofDatum _
  · exact ends_throw (by simp)

theorem ends_unbox? (v : Value) : Ends (scope.unbox? v) := by
  cases v with
  | null | void | primitive | text | array | range | placeholder => exact ends_pure _
  | object id =>
    refine (ends_call _).bind fun type => (ends_call _).bind fun name => ?_
    split
    · exact ends_pure _
    · have haccessor (kind : PrimitiveKind) : Ends (some <$> scope.unboxByAccessor id type kind) :=
        (scope.ends_unboxByAccessor id type kind).map
      refine (ends_call _).bind fun datum => ?_
      split
      · refine (ends_ofDatum _).bind fun inner => ?_
        split
        · exact ends_pure _
        · exact haccessor _
      · exact haccessor _

theorem ends_remoteString (s : String) (handle : Option ObjectId) :
    Ends (remoteString s handle) := by
  cases handle with
  | none => exact ends_call _
  | some id => exact ends_pure id

theorem ends_toString (id : ObjectId) : Ends (scope.invokeOn (.object id) "toString" []) := by
  refine ((ends_call _).bind fun _ => ends_pure _).bind fun target => ?_
  refine (ends_call _).bind fun methods => (ends_selectOverload methods).bind fun chosen => ?_
  cases chosen with
  | none => exact ends_throw (by simp)
  | some m =>
    exact scope.ends_ensureInvocable.bind fun _ => (ends_pure _).bind fun _ =>
      (ends_call _).bind fun _ => ends_ofDatum _

theorem ends_valueText (v : Value) : Ends (objectText.valueText v) := by
  cases v with
  | array id =>
    refine (ends_runtimeTypeName id).bind fun type => (ends_call _).attempt?.bind fun length => ?_
    cases length <;> exact ends_pure _
  | null | void | primitive | text | object | range | placeholder => exact ends_pure _

theorem ends_passPrimitive (p : Primitive) (param : String) :
    Ends (scope.passPrimitive p param) := by
  unfold passPrimitive
  split
  · refine (ends_call _).bind fun types => ?_
    split
    · exact ends_throw (by simp)
    · refine (ends_call _).bind fun methods => ?_
      split
      · exact ends_throw (by simp)
      · exact ends_call _
  · split
    · exact ends_pure _
    · exact ends_throw (by simp)

/-! ### Boxes in boxes -/

/-- Unboxing `n` times in a row, each time what came out before, leads from one object to
another. -/
inductive Opens : Nat → ObjectId → Link → ObjectId → Link → Prop where
  | nil (id : ObjectId) (l : Link) : Opens 0 id l id l
  | cons {n : Nat} {id inner last : ObjectId} {l l₁ l₂ : Link}
      (first : scope.unbox? (.object id) l = .ok (some (.object inner)) l₁)
      (rest : Opens n inner l₁ last l₂) : Opens (n + 1) id l last l₂

/-- There are `n` boxes in one another, and the innermost holds an object. -/
def Nests (n : Nat) (id : ObjectId) (l : Link) : Prop :=
  ∃ last l', scope.Opens n id l last l'

variable {scope} {m n : Nat} {id : ObjectId} {l : Link}

theorem Opens.unique {j k : ObjectId} {l₁ l₂ : Link} (h : scope.Opens n id l j l₁)
    (h' : scope.Opens n id l k l₂) : j = k ∧ l₁ = l₂ := by
  induction h with
  | nil id l =>
    cases h'
    exact ⟨rfl, rfl⟩
  | cons first rest ih =>
    cases h' with
    | cons first' rest' =>
      cases first.symm.trans first'
      exact ih rest'

theorem Opens.snoc {j k : ObjectId} {l₁ l₂ : Link} (h : scope.Opens n id l j l₁)
    (hlast : scope.unbox? (.object j) l₁ = .ok (some (.object k)) l₂) :
    scope.Opens (n + 1) id l k l₂ := by
  induction h with
  | nil id l => exact .cons hlast (.nil k l₂)
  | cons first rest ih => exact .cons first (ih hlast)

/-- Before the last step there are the others. -/
theorem Opens.init {k : ObjectId} {l₂ : Link} (h : scope.Opens (n + 1) id l k l₂) :
    ∃ j l₁, scope.Opens n id l j l₁ ∧
      scope.unbox? (.object j) l₁ = .ok (some (.object k)) l₂ := by
  induction n generalizing id l with
  | zero =>
    cases h with
    | cons first rest =>
      cases rest
      exact ⟨id, l, .nil id l, first⟩
  | succ n ih =>
    cases h with
    | cons first rest =>
      obtain ⟨j, l₁, hinit, hlast⟩ := ih rest
      exact ⟨j, l₁, .cons first hinit, hlast⟩

/-- Behind the first steps there are the others. -/
theorem Opens.rest {i j : ObjectId} {l₁ l₂ : Link} (h : scope.Opens (n + m) id l j l₂)
    (hn : scope.Opens n id l i l₁) : scope.Opens m i l₁ j l₂ := by
  induction hn with
  | nil id l => rwa [Nat.zero_add] at h
  | cons first _ ih =>
    rw [Nat.add_right_comm] at h
    cases h with
    | cons first' rest =>
      cases first.symm.trans first'
      exact ih rest

theorem Opens.front {j : ObjectId} {l₂ : Link} (h : scope.Opens (n + m) id l j l₂) :
    ∃ i l₁, scope.Opens n id l i l₁ := by
  induction m generalizing j l₂ with
  | zero => exact ⟨j, l₂, h⟩
  | succ m ih =>
    obtain ⟨i, l₁, hinit, -⟩ := Opens.init h
    exact ih hinit

theorem nests_zero (id : ObjectId) (l : Link) : scope.Nests 0 id l :=
  ⟨id, l, .nil id l⟩

theorem nests_succ_iff : scope.Nests (n + 1) id l ↔ ∃ inner l₁,
    scope.unbox? (.object id) l = .ok (some (.object inner)) l₁ ∧ scope.Nests n inner l₁ := by
  constructor
  · rintro ⟨last, l', h⟩
    cases h with
    | cons first rest => exact ⟨_, _, first, last, l', rest⟩
  · rintro ⟨inner, l₁, first, last, l', rest⟩
    exact ⟨last, l', .cons first rest⟩

theorem Nests.le (h : scope.Nests n id l) (hm : m ≤ n) : scope.Nests m id l := by
  obtain ⟨last, l', h⟩ := h
  rw [← Nat.add_sub_cancel' hm] at h
  exact h.front

/-- Each but the last is a box that an object comes out of. -/
theorem Nests.step (h : scope.Nests n id l) (hm : m < n) :
    ∃ i l₁ j l₂, scope.Opens m id l i l₁ ∧
      scope.unbox? (.object i) l₁ = .ok (some (.object j)) l₂ ∧ scope.Opens (m + 1) id l j l₂ := by
  obtain ⟨j, l₂, h⟩ := h.le hm
  obtain ⟨i, l₁, hinit, hlast⟩ := h.init
  exact ⟨i, l₁, j, l₂, hinit, hlast, h⟩

/-- A recursion that goes from a box to the object in it, and does the rest at once. -/
structure GoesInside {α : Type} (scope : Scope) (f : Nat → ObjectId → Eval α) : Prop where
  zero : ∀ id l, f 0 id l = .error .endless l
  inside : ∀ n {id inner l l₁}, scope.unbox? (.object id) l = .ok (some (.object inner)) l₁ →
    f (n + 1) id l = f n inner l₁
  settled : ∀ {id l}, (∀ inner l₁, scope.unbox? (.object id) l ≠ .ok (some (.object inner)) l₁) →
    (∀ n l', f (n + 1) id l ≠ .error .endless l') ∧ ∀ n, f (n + 1) id l = f 1 id l

namespace GoesInside

variable {α : Type} {f : Nat → ObjectId → Eval α}

/-- Such a recursion runs out of its `n` steps just if it meets `n` boxes. -/
theorem endless_iff (h : GoesInside scope f) :
    (∃ l', f n id l = .error .endless l') ↔ scope.Nests n id l := by
  induction n generalizing id l with
  | zero => exact ⟨fun _ => nests_zero id l, fun _ => ⟨l, h.zero id l⟩⟩
  | succ n ih =>
    rw [nests_succ_iff]
    by_cases hinner : ∃ inner l₁, scope.unbox? (.object id) l = .ok (some (.object inner)) l₁
    · obtain ⟨inner, l₁, hinner⟩ := hinner
      rw [h.inside n hinner, ih]
      constructor
      · intro hnests
        exact ⟨inner, l₁, hinner, hnests⟩
      · rintro ⟨inner', l₁', hinner', hnests⟩
        cases hinner.symm.trans hinner'
        exact hnests
    · constructor
      · rintro ⟨l', hl'⟩
        refine absurd hl' ((h.settled fun inner l₁ heq => hinner ⟨inner, l₁, heq⟩).1 n l')
      · rintro ⟨inner, l₁, heq, -⟩
        exact absurd ⟨inner, l₁, heq⟩ hinner

/-- With enough steps, more of them make no difference. -/
theorem more (h : GoesInside scope f) (hno : ¬ scope.Nests n id l) (k : Nat) :
    f (n + k) id l = f n id l := by
  induction n generalizing id l with
  | zero => exact absurd (nests_zero id l) hno
  | succ n ih =>
    rw [Nat.add_right_comm]
    by_cases hinner : ∃ inner l₁, scope.unbox? (.object id) l = .ok (some (.object inner)) l₁
    · obtain ⟨inner, l₁, hinner⟩ := hinner
      rw [h.inside _ hinner, h.inside _ hinner]
      exact ih fun hnests => hno (nests_succ_iff.mpr ⟨inner, l₁, hinner, hnests⟩)
    · have hsettled := (h.settled fun inner l₁ heq => hinner ⟨inner, l₁, heq⟩).2
      rw [hsettled, hsettled n]

end GoesInside

/-- What is done with an object that holds none, if it is done at once. -/
theorem settled_of {α β : Type} {f : Nat → ObjectId → Eval α} {x : Eval β} {g : Nat → β → Eval α}
    (hf : ∀ n, f (n + 1) id = x >>= g n) (hx : Ends x)
    (hg : ∀ a l₁, x l = .ok a l₁ → Ends (g 0 a) ∧ ∀ n, g n a = g 0 a) :
    (∀ n l', f (n + 1) id l ≠ .error .endless l') ∧ ∀ n, f (n + 1) id l = f 1 id l := by
  cases hrun : x l with
  | ok a l₁ =>
    obtain ⟨hends, hsame⟩ := hg a l₁ hrun
    have hall (n : Nat) : f (n + 1) id l = g 0 a l₁ := by
      rw [hf, bind_run hrun, hsame]
    refine ⟨fun n l' => ?_, fun n => (hall n).trans (hall 0).symm⟩
    rw [hall]
    exact hends l₁ l'
  | error e l₁ =>
    have hall (n : Nat) : f (n + 1) id l = .error e l₁ := by
      rw [hf, bind_error hrun]
    refine ⟨fun n l' heq => ?_, fun n => (hall n).trans (hall 0).symm⟩
    cases (hall n).symm.trans heq
    exact hx l l₁ hrun

/-- Whether an attempt to unbox is no object is told by the unboxing. -/
theorem unbox?_of_attempt {inner : ObjectId} {l₁ : Link}
    (h : (scope.unbox? (.object id)).attempt? l = .ok (some (some (.object inner))) l₁) :
    scope.unbox? (.object id) l = .ok (some (.object inner)) l₁ := by
  simp only [Eval.attempt?, Eval.attempt, Bind.bind, EStateM.bind] at h
  cases hrun : scope.unbox? (.object id) l with
  | ok found l₂ =>
    rw [hrun] at h
    cases h
    rfl
  | error e l₂ =>
    rw [hrun] at h
    cases e <;> cases h

theorem ends_ownText (scope : Scope) (id : ObjectId) : Ends (do
    if scope.settings.allowInvocation then
      if let some (.text s _) ← (scope.invokeOn (.object id) "toString" []).attempt? then
        return s
    return Value.identityText (← Eval.runtimeTypeName id) id) := by
  have hidentity : Ends (do return Value.identityText (← Eval.runtimeTypeName id) id) :=
    (ends_runtimeTypeName id).bind fun _ => ends_pure _
  split
  · refine (scope.ends_toString id).attempt?.bind fun text => ?_
    split
    · exact ends_pure _
    · exact hidentity
  · exact hidentity

theorem objectText_goesInside (scope : Scope) : GoesInside scope scope.objectText where
  zero _ _ := rfl
  inside n id inner l l₁ h := by
    rw [objectText, bind_run (attempt?_run h)]
  settled {id l} h := by
    refine settled_of (fun n => by rw [objectText]) (scope.ends_unbox? _).attempt? ?_
    rintro (_ | _ | v) l₁ hfound
    · exact ⟨ends_ownText scope id, fun _ => rfl⟩
    · exact ⟨ends_ownText scope id, fun _ => rfl⟩
    · cases v with
      | object inner => exact absurd (unbox?_of_attempt hfound) (h inner l₁)
      | null | void | primitive | text | array | range | placeholder =>
        exact ⟨ends_valueText _, fun _ => rfl⟩

/-- Passing anything but an object takes no steps. -/
theorem passArgument_plain (scope : Scope) (param : String) {v : Value}
    (hv : ∀ id, v ≠ .object id) :
    Ends (scope.passArgument param 0 v) ∧
      ∀ n, scope.passArgument param n v = scope.passArgument param 0 v := by
  cases v with
  | object id => exact absurd rfl (hv id)
  | text s handle =>
    simp only [passArgument]
    exact ⟨(ends_remoteString s handle).bind fun _ => ends_pure _, fun _ => trivial⟩
  | primitive p =>
    simp only [passArgument]
    exact ⟨scope.ends_passPrimitive p param, fun _ => trivial⟩
  | null | array =>
    simp only [passArgument]
    exact ⟨ends_pure _, fun _ => trivial⟩
  | void | range | placeholder =>
    simp only [passArgument]
    exact ⟨ends_throw (by simp), fun _ => trivial⟩

theorem passArgument_goesInside (scope : Scope) {param : String}
    (hparam : (PrimitiveKind.ofName? param).isSome) :
    GoesInside scope fun n id => scope.passArgument param n (.object id) where
  zero id l := by
    rw [passArgument, Option.isNone_eq_false_iff.mpr hparam]
    rfl
  inside n id inner l l₁ h := by
    rw [passArgument, Option.isNone_eq_false_iff.mpr hparam]
    exact bind_run h
  settled {id l} h := by
    have hnone := Option.isNone_eq_false_iff.mpr hparam
    refine settled_of (f := fun n id => scope.passArgument param n (.object id))
      (fun n => by rw [passArgument, hnone, if_neg Bool.false_ne_true])
      (scope.ends_unbox? (.object id)) ?_
    rintro (_ | v) l₁ hfound
    · exact ⟨(ends_typeNameOf _).bind fun _ => ends_throw (by simp), fun _ => rfl⟩
    · exact scope.passArgument_plain param fun inner hv => h inner l₁ (hv ▸ hfound)

end Scope

end Debugger
