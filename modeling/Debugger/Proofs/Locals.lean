import Debugger.Proofs.Marshalling

/-!
A target in which a local variable is given a value, and the same target as it was: whatever does
not read the variable answers the same on both, and what changes the target changes both alike.
-/

namespace Debugger

def Frame.setLocal (fr : Frame) (name : String) (value : Datum) : Frame :=
  { fr with locals := Target.updateFirst (·.name = name) ({ · with value }) fr.locals }

def Thread.setLocal (th : Thread) (frame : FrameId) (name : String) (value : Datum) : Thread :=
  { th with frames := Target.updateFirst (·.id = frame) (·.setLocal name value) th.frames }

namespace Target

theorem find?_updateFirst {α : Type} {p : α → Bool} {f : α → α} (hf : ∀ a, p (f a) = p a)
    (l : List α) : (updateFirst p f l).find? p = (l.find? p).map f := by
  induction l with
  | nil => rfl
  | cons a l ih =>
    cases ha : p a with
    | true => simp [updateFirst, ha, hf]
    | false => simp [updateFirst, ha, ih]

/-- An entry that is not the one to be replaced is found as it was. -/
theorem find?_updateFirst_of_ne {α : Type} {p q : α → Bool} {f : α → α}
    (hf : ∀ a, q (f a) = q a) (hpq : ∀ a, p a = true → q a = false) (l : List α) :
    (updateFirst p f l).find? q = l.find? q := by
  induction l with
  | nil => rfl
  | cons a l ih =>
    cases ha : p a with
    | true => simp [updateFirst, ha, hf, hpq a ha]
    | false => simp [updateFirst, ha, List.find?_cons, ih]

variable (t : Target) (thread : ThreadId) (frame : FrameId) (name : String) (value : Datum)

theorem setLocal_eq : t.setLocal thread frame name value =
    t.updateThread thread (·.setLocal frame name value) := rfl

theorem Blind.setLocal {α : Type} {f : Target → α} (hf : Blind f) :
    f (t.setLocal thread frame name value) = f t :=
  hf t _

/-! ### Threads and frames -/

theorem thread?_setLocal : (t.setLocal thread frame name value).thread? thread =
    (t.thread? thread).map (·.setLocal frame name value) := by
  have hkey : ((fun th : Thread => decide (th.id = thread)) ∘ fun th =>
      if th.id = thread then th.setLocal frame name value else th) =
        fun th => decide (th.id = thread) := by
    funext th
    simp only [Function.comp_apply]
    split <;> rfl
  rw [setLocal_eq, thread?, updateThread, List.find?_map, hkey, ← thread?]
  cases hth : t.thread? thread with
  | none => rfl
  | some th =>
    have hid : th.id = thread := by simpa using List.find?_some hth
    rw [Option.map_some, Option.map_some, if_pos hid]

theorem checkThread_setLocal : (t.setLocal thread frame name value).checkThread thread =
    (·.setLocal frame name value) <$> t.checkThread thread := by
  rw [checkThread, checkThread, thread?_setLocal]
  have hconnected : (t.setLocal thread frame name value).checkConnected = t.checkConnected := rfl
  rw [hconnected]
  cases t.checkConnected with
  | error fault => rfl
  | ok _ => cases t.thread? thread <;> rfl

theorem threadSuspended_setLocal : (t.setLocal thread frame name value).threadSuspended thread =
    t.threadSuspended thread := by
  rw [threadSuspended, threadSuspended, checkThread_setLocal]
  cases t.checkThread thread <;> rfl

theorem checkFrame_setLocal : (t.setLocal thread frame name value).checkFrame thread frame =
    (·.setLocal name value) <$> t.checkFrame thread frame := by
  rw [checkFrame, checkFrame, checkThread_setLocal]
  cases t.checkThread thread with
  | error fault => rfl
  | ok th =>
    have hframe : (th.setLocal frame name value).frames.find? (·.id = frame) =
        (th.frames.find? (·.id = frame)).map (·.setLocal name value) :=
      find?_updateFirst (by exact fun _ => rfl) th.frames
    have hsuspended : (th.setLocal frame name value).suspended = th.suspended := rfl
    simp only [bind, Except.bind, Functor.map, Except.map, hsuspended, hframe]
    cases th.suspended with
    | false => rfl
    | true => cases th.frames.find? (·.id = frame) <;> rfl

theorem frameThis_setLocal : (t.setLocal thread frame name value).frameThis thread frame =
    t.frameThis thread frame := by
  rw [frameThis, frameThis, checkFrame_setLocal]
  cases t.checkFrame thread frame <;> rfl

theorem frameType_setLocal : (t.setLocal thread frame name value).frameType thread frame =
    t.frameType thread frame := by
  rw [frameType, frameType, checkFrame_setLocal]
  cases t.checkFrame thread frame <;> rfl

theorem visibleVariables_setLocal :
    (t.setLocal thread frame name value).visibleVariables thread frame =
      t.visibleVariables thread frame := by
  rw [visibleVariables, visibleVariables, checkFrame_setLocal]
  cases t.checkFrame thread frame with
  | error fault => rfl
  | ok fr =>
    have hlocals : (fr.setLocal name value).locals.map (fun v => (⟨v.name, v.type⟩ : Variable)) =
        fr.locals.map fun v => ⟨v.name, v.type⟩ :=
      updateFirst_map _ _ _ (by exact fun _ => rfl) _
    exact congrArg Except.ok hlocals

theorem variableValue_setLocal_of_ne {other : String} (hne : other ≠ name) :
    (t.setLocal thread frame name value).variableValue thread frame other =
      t.variableValue thread frame other := by
  rw [variableValue, variableValue, checkFrame_setLocal]
  cases t.checkFrame thread frame with
  | error fault => rfl
  | ok fr =>
    have hlocal : (fr.setLocal name value).locals.find? (·.name = other) =
        fr.locals.find? (·.name = other) := by
      refine find?_updateFirst_of_ne (by exact fun _ => rfl) (fun v hv => ?_) fr.locals
      simpa [of_decide_eq_true hv] using Ne.symm hne
    simp only [bind, Except.bind, Functor.map, Except.map, hlocal]

/-- The variable has the value if it is there. -/
theorem variableValue_setLocal :
    (t.setLocal thread frame name value).variableValue thread frame name =
      (fun _ => value) <$> t.variableValue thread frame name := by
  rw [variableValue, variableValue, checkFrame_setLocal]
  cases t.checkFrame thread frame with
  | error fault => rfl
  | ok fr =>
    have hlocal : (fr.setLocal name value).locals.find? (·.name = name) =
        (fr.locals.find? (·.name = name)).map ({ · with value }) :=
      find?_updateFirst (by exact fun _ => rfl) fr.locals
    simp only [bind, Except.bind, Functor.map, Except.map, hlocal]
    cases fr.locals.find? (·.name = name) <;> rfl

variable {t thread frame name} in
theorem variableValue_connected {d : Datum} (h : t.variableValue thread frame name = .ok d) :
    t.connected = true := by
  cases hc : t.connected with
  | true => rfl
  | false =>
    simp only [variableValue, checkFrame, checkThread, checkConnected, hc] at h
    contradiction

/-! ### Changes -/

theorem objectType_setLocal (id : ObjectId) :
    (t.setLocal thread frame name value).objectType id =
      (fun r => (r.1, r.2.setLocal thread frame name value)) <$> t.objectType id := by
  have hcheck : (t.setLocal thread frame name value).checkObject id = t.checkObject id := rfl
  rw [objectType, objectType, hcheck]
  cases t.checkObject id with
  | error fault => rfl
  | ok cell =>
    cases cell with
    | «instance» | array => rfl
    | string text =>
      simp only [bind, Except.bind, Functor.map, Except.map, ensureType]
      have hnamed : (t.setLocal thread frame name value).typeNamed? TypeName.string =
        t.typeNamed? TypeName.string := rfl
      rw [hnamed]
      cases t.typeNamed? TypeName.string <;> rfl

theorem wrapString_setLocal (text : String) :
    (t.setLocal thread frame name value).wrapString text =
      (fun r => (r.1, r.2.setLocal thread frame name value)) <$> t.wrapString text := by
  have hconnected : (t.setLocal thread frame name value).checkConnected = t.checkConnected := rfl
  rw [wrapString, wrapString, hconnected]
  cases t.checkConnected <;> rfl

theorem checkInvocation_setLocal (receiver : Option Receiver) (method : MethodId) :
    (t.setLocal thread frame name value).checkInvocation thread receiver method =
      t.checkInvocation thread receiver method := by
  rw [checkInvocation, checkInvocation, checkThread_setLocal]
  cases t.checkThread thread with
  | error fault => rfl
  | ok th => rfl

theorem run_setLocal (receiver : Option Receiver) (method : MethodId) (args : List Datum) :
    (t.setLocal thread frame name value).run thread receiver method args =
      ((t.run thread receiver method args).1,
        (t.run thread receiver method args).2.setLocal thread frame name value) := by
  rw [run, run, checkInvocation_setLocal]
  cases t.checkInvocation thread receiver method with
  | error fault => rfl
  | ok found =>
    obtain ⟨m, behaviour⟩ := found
    cases behaviour with
    | returns | throws | computes => rfl
    | boxes type =>
      simp only [perform, typeNamed?]
      have htypes : (t.setLocal thread frame name value).types = t.types := rfl
      rw [htypes]
      cases t.types.find? (·.name = type) <;> rfl

theorem construct_setLocal (type : TypeId) (constructor : MethodId) (args : List Datum) :
    (t.setLocal thread frame name value).construct thread type constructor args =
      ((t.construct thread type constructor args).1,
        (t.construct thread type constructor args).2.setLocal thread frame name value) := by
  rw [construct, construct, run_setLocal]
  cases t.run thread none constructor args with
  | mk result t' =>
    cases result with
    | error fault => rfl
    | ok d => cases d <;> rfl

end Target

end Debugger
