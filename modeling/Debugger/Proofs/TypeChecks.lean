import Debugger.Proofs.Membership
import Debugger.Proofs.Overloads

/-!
Type checks of boxes. A check of a box walks its supertypes, and a check of a primitive looks into
tables: here the two are held against each other, on all names that a kind of primitives and its
box go by.
-/

namespace Debugger

open Syntax

namespace PrimitiveKind

/-- The simple name of the kind's class, which the alias table turns into the name of the kind. -/
def className : PrimitiveKind → String
  | boolean => "Boolean"
  | byte => "Byte"
  | short => "Short"
  | int => "Int"
  | long => "Long"
  | float => "Float"
  | double => "Double"
  | char => "Char"

/-- The names that a kind and its box go by. -/
def spellings (k : PrimitiveKind) : List String :=
  [k.name, k.className, "kotlin." ++ k.className, TypeName.simple k.box, k.box]

/-- Whether a name is one of the box and not turned into the name of the kind. -/
def NamesBox (k : PrimitiveKind) (name : String) : Prop :=
  name = k.box ∨ name = TypeName.simple k.box ∧ (k = int ∨ k = char)

instance (k : PrimitiveKind) : DecidablePred k.NamesBox :=
  fun _ => inferInstanceAs (Decidable (_ ∨ _))

theorem canonical_of_spelling (k : PrimitiveKind) :
    ∀ name ∈ k.spellings, ¬ k.NamesBox name → TypeName.canonical name = k.name := by
  cases k <;> decide +kernel

theorem refersTo_box (k : PrimitiveKind) :
    ∀ name ∈ k.spellings, k.NamesBox name → TypeName.refersTo name k.box = true := by
  cases k <;> decide +kernel

/-- A primitive is an instance under all names of its kind and of its box. -/
theorem primitive_spelling (k : PrimitiveKind) :
    ∀ name ∈ k.spellings, (TypeName.canonical name = k.name ||
      (TypeName.boxTargets k).any fun (box, _) => TypeName.refersTo name box) = true := by
  cases k <;> decide +kernel

end PrimitiveKind

namespace TypeName

/-- A name of a primitive type refers to the types of that simple name. -/
theorem refersTo_of_primitive {written full : String} {k : PrimitiveKind}
    (h : canonical written = k.name) : refersTo written full = decide (simple full = k.name) := by
  have hplain : isQualified k.name = false := by cases k <;> decide +kernel
  have hsimple : simple k.name = k.name := by cases k <;> decide +kernel
  simp only [refersTo, h, hplain]
  by_cases hfull : full = k.name
  · simp [hfull, hsimple]
  · simp [hfull]

end TypeName

namespace Eval

variable {l : Link} {args : List Value} {id : ObjectId} {type : TypeId} {e : TypeEntry}

/-- An object is an instance of what one of its supertypes is referred to by. -/
theorem isInstance_run (h : l.TellsTypes args) (htype : l.target.typeOf? id = some type)
    (he : l.target.type? type = some e) (ref : TypeRef) :
    ∃ l', isInstance ref (.object id) l = .ok (((l.target.supertypes type).map l.target.named).any
      fun x => TypeName.refersTo ref.name x.1) l' ∧ l.Asked l' := by
  obtain ⟨l', hhierarchy, hasked⟩ := hierarchy_run (h.asked (.counted l)).walk he
  refine ⟨l', ?_, (Link.Asked.counted l).trans hasked⟩
  rw [isInstance, bind_run (objectType_run h htype), bind_run hhierarchy]
  rfl

theorem runtimeType_lift (id : ObjectId) :
    (liftM (runtimeType id) : Eval String) = (do
      let type ← Remote.objectType id
      Remote.typeName type) := by
  funext l
  simp only [runtimeType, liftM, monadLift, MonadLift.monadLift, bind, EStateM.bind]
  cases Remote.objectType id l <;> rfl

/-- An object whose type can be told is reported with the name of its type. -/
theorem runtimeTypeName_run (h : l.TellsTypes args) (htype : l.target.typeOf? id = some type)
    (he : l.target.type? type = some e) :
    ∃ l', runtimeTypeName id l = .ok e.name l' ∧ l.Asked l' := by
  have hname := typeName_run (h.asked (.counted l)).walk he
  have hrun : (liftM (runtimeType id) : Eval String) l = .ok e.name l.counted.counted := by
    rw [runtimeType_lift, bind_run (objectType_run h htype)]
    exact hname
  refine ⟨l.counted.counted, ?_, (Link.Asked.counted l).trans (.counted _)⟩
  rw [runtimeTypeName, bind_run (attempt?_run hrun)]
  rfl

end Eval

namespace Target

/-- Whether a type that is a box of the kind, or one of its supertypes, is referred to by a name:
the names of the box count, the names of the kind only for a supertype that is so called. -/
theorem any_refersTo_box {t : Target} {type : TypeId} {e : TypeEntry} {k : PrimitiveKind}
    (he : t.type? type = some e) (hbox : e.name = k.box) {name : String}
    (hname : name ∈ k.spellings) :
    (((t.supertypes type).map t.named).any fun x => TypeName.refersTo name x.1) = true ↔
      k.NamesBox name ∨ ∃ x ∈ (t.supertypes type).map t.named, TypeName.simple x.1 = k.name := by
  by_cases hnames : k.NamesBox name
  · obtain ⟨above, habove, -⟩ := supertypes_named he
    rw [habove, List.any_cons, hbox, k.refersTo_box name hname hnames]
    simp only [Bool.true_or, hnames, true_or]
  · simp only [List.any_eq_true, hnames, false_or,
      TypeName.refersTo_of_primitive (k.canonical_of_spelling name hname hnames),
      decide_eq_true_eq]

end Target

namespace Scope

variable {scope : Scope} {hole : String → Eval Value}

theorem evaluate_typeCheck {x : Expr} {v : Value} {l l₁ l₂ : Link} {ref : TypeRef} {b : Bool}
    (hx : scope.evaluate hole x l = .ok v l₁) (hcheck : Eval.isInstance ref v l₁ = .ok b l₂)
    (negated : Bool) :
    scope.evaluate hole (.typeCheck x ref negated) l = .ok (.bool (b != negated)) l₂ := by
  rw [evaluate, Eval.bind_run hx, Eval.bind_run hcheck]
  rfl

theorem evaluate_cast {x : Expr} {id : ObjectId} {l l₁ l₂ l₃ : Link} {ref : TypeRef} {b : Bool}
    {name : String} (hx : scope.evaluate hole x l = .ok (.object id) l₁)
    (hcheck : Eval.isInstance ref (.object id) l₁ = .ok b l₂)
    (hname : Eval.runtimeTypeName id l₂ = .ok name l₃) (safe : Bool) :
    scope.evaluate hole (.cast x ref safe) l =
      if b then .ok (.object id) l₂
      else if safe then .ok .null l₂
      else .error (.typeMismatch (.cast name ref.name)) l₃ := by
  have hcast : castTo (.object id) ref safe = (do
      if ← Eval.isInstance ref (.object id) then return .object id
      if safe then return .null
      throw (.typeMismatch (.cast (← Eval.typeNameOf (.object id)) ref.name))) := by
    simp only [castTo, Value.isNull, convertTo?, Bool.false_eq_true, ↓reduceIte]
  rw [evaluate, Eval.bind_run hx, hcast, Eval.bind_run hcheck]
  cases b with
  | true => rfl
  | false =>
    cases safe with
    | true => rfl
    | false => exact Eval.bind_run hname

/-- Checks and casts of a box under the names that the kind of primitives in it goes by. A primitive
of the kind is an instance under all of them. Its box is one under the names that are not turned into
the name of the kind; under the others it is one just if a supertype has the simple name of the
kind. A cast agrees with the check. -/
theorem box_instance {x y : Expr} {l l₁ m m₁ : Link} {id : ObjectId} {type : TypeId}
    {e : TypeEntry} {k : PrimitiveKind} {p : Primitive} (ref : TypeRef)
    (hx : scope.evaluate hole x l = .ok (.object id) l₁) (htells : l₁.TellsTypes [.object id])
    (htype : l₁.target.typeOf? id = some type) (he : l₁.target.type? type = some e)
    (hbox : e.name = k.box) (hy : scope.evaluate hole y m = .ok (.primitive p) m₁)
    (hp : p.kind = k) (href : ref.name ∈ k.spellings) (negated safe : Bool) :
    scope.evaluate hole (.typeCheck y ref negated) m = .ok (.bool (true != negated)) m₁ ∧
    ∃ (instance? : Bool) (l₂ l₃ : Link),
      (instance? = true ↔ k.NamesBox ref.name ∨
        ∃ x ∈ (l₁.target.supertypes type).map l₁.target.named, TypeName.simple x.1 = k.name) ∧
      scope.evaluate hole (.typeCheck x ref negated) l = .ok (.bool (instance? != negated)) l₂ ∧
      scope.evaluate hole (.cast x ref safe) l =
        if instance? then .ok (.object id) l₂
        else if safe then .ok .null l₂
        else .error (.typeMismatch (.cast k.box ref.name)) l₃ := by
  constructor
  · refine evaluate_typeCheck hy ?_ negated
    have hprimitive := k.primitive_spelling ref.name href
    simp only [Eval.isInstance, hp, hprimitive]
    rfl
  · obtain ⟨l₂, hcheck, hasked⟩ := Eval.isInstance_run htells htype he ref
    rw [← hasked.target] at htype he
    obtain ⟨l₃, hnamed, -⟩ := Eval.runtimeTypeName_run (htells.asked hasked) htype he
    rw [hasked.target] at htype he
    exact ⟨_, l₂, l₃, Target.any_refersTo_box he hbox href, evaluate_typeCheck hx hcheck negated,
      evaluate_cast hx hcheck (hbox ▸ hnamed) safe⟩

/-- A box of five is an instance of `Integer?`, as five is. -/
theorem box_instance_integer :
    let box : TypeEntry :=
      ⟨1, "java.lang.Integer", none, none, [], [], [], ["value"], [], true⟩
    let frame : Frame := ⟨4, 1, none, 7, [⟨"x", "java.lang.Integer", .object 2⟩]⟩
    let l : Link := { target := {
      types := [box], heap := [(2, .instance 1 [("value", .primitive (.int 5))])],
      threads := [⟨3, true, [frame]⟩] } }
    let scope : Scope := ⟨3, 4, {}⟩
    (∃ l', scope.run (.typeCheck (.name "x") ⟨"Integer", true⟩ false) l = .ok (.bool true) l') ∧
      scope.run (.typeCheck (.literal (.int 5)) ⟨"Integer", true⟩ false) l = .ok (.bool true) l := by
  intro box frame l scope
  let hole (source : String) := scope.evaluateHole (source.utf8ByteSize / 5 + 1) source
  let l₁ : Link := { l with calls := 2 }
  have hx : scope.evaluate hole (.name "x") l = .ok (.object 2) l₁ := rfl
  have htells : l₁.TellsTypes [.object 2] := by
    refine ⟨⟨rfl, fun _ _ _ _ => rfl⟩, fun v hv id hid => ?_⟩
    rw [List.mem_singleton.mp hv] at hid
    obtain rfl : 2 = id := by simpa using hid
    exact ⟨1, box, rfl, rfl⟩
  have hfive : scope.evaluate hole (.literal (.int 5)) l = .ok (.int 5) l := rfl
  have hnames : PrimitiveKind.int.NamesBox "Integer" := by decide +kernel
  obtain ⟨hprimitive, instance?, l₂, l₃, hiff, hcheck, -⟩ :=
    box_instance ⟨"Integer", true⟩ hx htells rfl rfl rfl hfive rfl (by decide +kernel)
      false false
  rw [hiff.mpr (.inl hnames)] at hcheck
  exact ⟨⟨l₂, hcheck⟩, hprimitive⟩

/-- A box of the `long` five is an instance of `java.lang.Long` but not of `Long`, of which five is
one. -/
theorem box_instance_not_long :
    let box : TypeEntry := ⟨1, "java.lang.Long", none, none, [], [], [], ["value"], [], true⟩
    let frame : Frame := ⟨4, 1, none, 7, [⟨"x", "java.lang.Long", .object 2⟩]⟩
    let l : Link := { target := {
      types := [box], heap := [(2, .instance 1 [("value", .primitive (.long 5))])],
      threads := [⟨3, true, [frame]⟩] } }
    let scope : Scope := ⟨3, 4, {}⟩
    let check (e : Expr) (name : String) := scope.run (.typeCheck e ⟨name, false⟩ false) l
    (∃ l', check (.name "x") "java.lang.Long" = .ok (.bool true) l') ∧
      (∃ l', check (.name "x") "Long" = .ok (.bool false) l') ∧
      ∃ l', check (.literal (.long 5)) "Long" = .ok (.bool true) l' := by
  intro box frame l scope check
  refine ⟨?_, ?_, ?_⟩
  all_goals
    apply Eval.ok_of_truth
    decide +kernel

end Scope
end Debugger
