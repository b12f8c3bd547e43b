import Debugger.Proofs.Handles

/-!
The numbers of handles over a whole run. Until the numbers have gone round, each new handle has a
number that none had before it, so that a handle that was given for an object never comes to name
another one.
-/

namespace Debugger

namespace Handles

/-! ### What a run gives -/

/-- The handle that an act gives, with the object that it is for. -/
def answer (hs : Handles) : Act → List (Handle × ObjectId)
  | .track object type => [((hs.track object type).1, object)]
  | _ => []

/-- The handles that were given in a run, with the objects that they were for. -/
def answers : List Act → Handles → List (Handle × ObjectId)
  | [], _ => []
  | act :: acts, hs => hs.answer act ++ answers acts (hs.perform act)

/-- How many new handles an act makes: one for an object that has none, and no other. -/
def allocation (hs : Handles) : Act → Nat
  | .track object _ => if (hs.handle? object).isNone then 1 else 0
  | _ => 0

/-- How many new handles are made in a run. -/
def allocations : List Act → Handles → Nat
  | [], _ => 0
  | act :: acts, hs => hs.allocation act + allocations acts (hs.perform act)

theorem answers_append (before after : List Act) (hs : Handles) :
    answers (before ++ after) hs = answers before hs ++ answers after (run before hs) := by
  induction before generalizing hs with
  | nil => rfl
  | cons act before ih => rw [List.cons_append, answers, ih, ← List.append_assoc]; rfl

theorem allocations_append (before after : List Act) (hs : Handles) :
    allocations (before ++ after) hs =
      allocations before hs + allocations after (run before hs) := by
  induction before generalizing hs with
  | nil => exact (Nat.zero_add _).symm
  | cons act before ih => rw [List.cons_append, allocations, ih, ← Nat.add_assoc]; rfl

/-! ### Acts that make no new handle -/

/-- No handle is new, and the next number to try is the same. -/
structure Dwindles (hs hs' : Handles) : Prop where
  next : hs'.next = hs.next
  size : hs'.size ≤ hs.size
  objects : ∀ h object, hs'.object? h = some object → hs.object? h = some object

variable {hs : Handles}

namespace Dwindles

theorem refl (hs : Handles) : hs.Dwindles hs :=
  ⟨rfl, Nat.le_refl _, fun _ _ h => h⟩

theorem without (hs : Handles) (gone rest : List Handle) :
    hs.Dwindles { hs.without gone with queue := rest } := by
  refine ⟨rfl, List.length_filter_le _ _, fun h object hobject => ?_⟩
  have hfind : ({ hs.without gone with queue := rest } : Handles).find? h = _ :=
    find?_without hs gone h
  rw [object?, hfind] at hobject
  split at hobject
  · contradiction
  · exact hobject

theorem evict (hf : hs.Filed) : hs.Dwindles hs.evict := by
  rw [hf.evict_eq]
  exact without hs _ _

theorem adjust (hs : Handles) (h : Handle) {f : Tracked → Tracked}
    (hhandle : ∀ e, (f e).handle = e.handle) (hobject : ∀ e, (f e).object = e.object) :
    hs.Dwindles (hs.adjust h f) := by
  refine ⟨rfl, (List.length_map _).le, fun h' object hobject' => ?_⟩
  rwa [object?_adjust hs h hhandle hobject] at hobject'

theorem markInvalid (hs : Handles) (object : ObjectId) : hs.Dwindles (hs.markInvalid object) := by
  unfold Handles.markInvalid
  split
  · exact adjust hs _ (fun _ => rfl) (fun _ => rfl)
  · exact refl hs

theorem pin (hs : Handles) (h : Handle) : hs.Dwindles (hs.pin h) := by
  unfold Handles.pin
  split
  · exact ⟨rfl, Nat.le_refl _, fun _ _ h => h⟩
  · exact refl hs

theorem unpin (hf : hs.Filed) (h : Handle) : hs.Dwindles (hs.unpin h) := by
  by_cases hm : h ∈ hs.pinned
  · obtain ⟨hnext, hsize, hobjects⟩ := evict (hf.released hm)
    rw [hf.unpin_eq hm]
    exact ⟨hnext, hsize, hobjects⟩
  · rw [Handles.unpin, isPinned_eq_false.mpr hm]
    exact refl hs

theorem clearUnpinned (hf : hs.Filed) : hs.Dwindles hs.clearUnpinned := by
  rw [Handles.clearUnpinned, hf.forgetAll_eq]
  exact without hs _ _

/-- An act that makes no new handle leaves none that was not there. -/
theorem perform (hf : hs.Filed) {act : Act} (hquiet : hs.allocation act = 0) :
    hs.Dwindles (hs.perform act) := by
  cases act with
  | track object type =>
    cases hold : hs.handle? object with
    | none => simp [allocation, hold] at hquiet
    | some old =>
      simp only [Handles.perform, track, hold]
      exact adjust hs old (fun _ => rfl) (fun _ => rfl)
  | pin h => exact pin hs h
  | unpin h => exact unpin hf h
  | markInvalid object => exact markInvalid hs object
  | clearUnpinned => exact clearUnpinned hf

end Dwindles

/-! ### Acts that make one -/

theorem freeFrom_self (hs : Handles) (tries : Nat) {n : UInt32} (h : hs.isLive ⟨n⟩ = false) :
    hs.freeFrom tries n = (⟨n⟩, Handle.after n) := by
  cases tries with
  | zero => rfl
  | succ tries => simp [freeFrom, h]

/-- A new handle, where the next number is free: it has this number, and the other handles are among
those that were there. -/
structure Grants (hs : Handles) (object : ObjectId) (h : Handle) (hs' : Handles) : Prop where
  handle : h = ⟨hs.next⟩
  next : hs'.next = Handle.after hs.next
  size : hs'.size ≤ hs.size + 1
  objects : ∀ h' object', hs'.object? h' = some object' →
    (h', object') = (h, object) ∨ hs.object? h' = some object'

theorem Filed.track_grants (hf : hs.Filed) {object : ObjectId} (hnew : hs.handle? object = none)
    (type : String) (hfree : hs.isLive ⟨hs.next⟩ = false) :
    hs.Grants object (hs.track object type).1 (hs.track object type).2 := by
  rw [track_of_untracked hnew, freeFrom_self hs _ hfree]
  have hfiled := hf.enroll (e := ⟨⟨hs.next⟩, object, type, false⟩) hfree hnew
    (Handle.after hs.next)
  obtain ⟨hnext, hsize, hobjects⟩ := Dwindles.evict hfiled
  refine ⟨rfl, hnext, hsize.trans (List.length_append).le, fun h' object' hobject => ?_⟩
  have hold := hobjects h' object' hobject
  rw [object?, find?_enroll hfree] at hold
  split at hold
  · rename_i hh
    subst hh
    exact .inl (congrArg _ (Option.some.inj hold).symm)
  · exact .inr hold

/-! ### A whole run -/

/-- A table in which as many handles have been made and these have been given. -/
structure Numbered (hs : Handles) (made : Nat) (given : List (Handle × ObjectId)) : Prop
    extends hs.Consistent where
  next_eq : hs.next.toNat = made + 1
  few : hs.size ≤ made
  live : ∀ h object, hs.object? h = some object → (h, object) ∈ given
  below : ∀ p ∈ given, p.1.number.toNat ≤ made
  unique : ∀ p ∈ given, ∀ q ∈ given, p.1 = q.1 → p.2 = q.2

namespace Numbered

variable {made : Nat} {given : List (Handle × ObjectId)} (hn : hs.Numbered made given)

theorem start (limit : Nat) : ({ limit } : Handles).Numbered 0 [] where
  toConsistent := consistent_empty limit (by decide)
  next_eq := rfl
  few := Nat.le_refl 0
  live := by simp [object?, find?]
  below := by simp
  unique := by simp

include hn

/-- The next number is not that of a handle that was given. -/
theorem next_free {h : Handle} (hh : h.number = hs.next) (object : ObjectId) :
    (h, object) ∉ given := by
  intro hm
  have hle : h.number.toNat ≤ made := hn.below _ hm
  rw [hh, hn.next_eq] at hle
  omega

theorem next_not_live : hs.isLive ⟨hs.next⟩ = false := by
  refine Bool.eq_false_iff.mpr fun hlive => ?_
  obtain ⟨e, he⟩ := Option.isSome_iff_exists.mp hlive
  have hobject : hs.object? ⟨hs.next⟩ = some e.object := by rw [object?, he]; rfl
  exact hn.next_free rfl e.object (hn.live _ _ hobject)

/-- An act either makes no handle and gives none but a live one, or it makes one with the next
number. -/
theorem perform_cases (act : Act) :
    (hs.allocation act = 0 ∧ hs.answer act ⊆ given ∧ hs.Dwindles (hs.perform act)) ∨
      ∃ h object, hs.allocation act = 1 ∧ hs.answer act = [(h, object)] ∧
        hs.Grants object h (hs.perform act) := by
  by_cases hquiet : hs.allocation act = 0
  · refine .inl ⟨hquiet, ?_, .perform hn.toFiled hquiet⟩
    cases act with
    | track object type =>
      cases hold : hs.handle? object with
      | none => simp [allocation, hold] at hquiet
      | some h =>
        simp only [answer, track, hold]
        exact List.cons_subset.mpr
          ⟨hn.live h object (hn.inverse.mpr hold), List.nil_subset given⟩
    | _ => exact List.nil_subset given
  · cases act with
    | track object type =>
      have hnew : hs.handle? object = none := by
        cases hold : hs.handle? object with
        | none => rfl
        | some h => simp [allocation, hold] at hquiet
      refine .inr ⟨_, object, by simp [allocation, hnew], rfl, ?_⟩
      exact hn.track_grants hnew type hn.next_not_live
    | _ => exact absurd rfl hquiet

theorem perform (act : Act) (hroom : made + hs.allocation act < 4294967295) :
    (hs.perform act).Numbered (made + hs.allocation act) (given ++ hs.answer act) := by
  have hconsistent := hn.toConsistent.perform (by have := hn.few; omega) act
  rcases hn.perform_cases act with ⟨hquiet, hgiven, hstep⟩ | ⟨h, object, hone, hanswer, hstep⟩
  · have hsame : ∀ p ∈ given ++ hs.answer act, p ∈ given := fun p hp =>
      (List.mem_append.mp hp).elim id fun hp => hgiven hp
    rw [hquiet, Nat.add_zero]
    exact {
      toConsistent := hconsistent
      next_eq := hstep.next ▸ hn.next_eq
      few := hstep.size.trans hn.few
      live := fun h object hobject =>
        List.mem_append_left _ (hn.live h object (hstep.objects h object hobject))
      below := fun p hp => hn.below p (hsame p hp)
      unique := fun p hp q hq => hn.unique p (hsame p hp) q (hsame q hq) }
  · have hnumber : h.number = hs.next := congrArg Handle.number hstep.handle
    have hnew (p : Handle × ObjectId) (hp : p ∈ given) : p.1 ≠ h := by
      rintro rfl
      exact hn.next_free hnumber p.2 hp
    rw [hone] at hroom
    rw [hanswer, hone]
    refine ⟨hconsistent, ?_, hstep.size.trans (Nat.succ_le_succ hn.few), ?_, ?_, ?_⟩
    · -- the numbers do not go round yet
      rw [hstep.next, Handle.toNat_after, hn.next_eq, Nat.mod_eq_of_lt hroom]
    · intro h' object' hobject
      rcases hstep.objects h' object' hobject with hsame | hold
      · exact List.mem_append_right _ (List.mem_singleton.mpr hsame)
      · exact List.mem_append_left _ (hn.live h' object' hold)
    · intro p hp
      rcases List.mem_append.mp hp with hp | hp
      · exact Nat.le_succ_of_le (hn.below p hp)
      · rw [List.mem_singleton.mp hp]
        exact (hnumber ▸ hn.next_eq).le
    · intro p hp q hq hpq
      rcases List.mem_append.mp hp with hp | hp <;> rcases List.mem_append.mp hq with hq | hq
      · exact hn.unique p hp q hq hpq
      · rw [List.mem_singleton.mp hq] at hpq
        exact absurd hpq (hnew p hp)
      · rw [List.mem_singleton.mp hp] at hpq
        exact absurd hpq.symm (hnew q hq)
      · rw [List.mem_singleton.mp hp, List.mem_singleton.mp hq]

/-- A handle that was given and is gone does not come back. -/
theorem perform_gone (act : Act) {h : Handle} {object : ObjectId} (hgiven : (h, object) ∈ given)
    (hgone : hs.object? h = none) : (hs.perform act).object? h = none := by
  refine Option.eq_none_iff_forall_ne_some.mpr fun object' hback => ?_
  have hno : hs.object? h ≠ some object' := by simp [hgone]
  rcases hn.perform_cases act with ⟨-, -, hstep⟩ | ⟨new, _, -, -, hstep⟩
  · exact hno (hstep.objects h object' hback)
  · rcases hstep.objects h object' hback with hsame | hold
    · obtain ⟨rfl, -⟩ := Prod.mk.inj hsame
      exact hn.next_free (congrArg Handle.number hstep.handle) object hgiven
    · exact hno hold

theorem run {acts : List Act} (hroom : made + allocations acts hs < 4294967295) :
    (Handles.run acts hs).Numbered (made + allocations acts hs) (given ++ answers acts hs) := by
  induction acts generalizing hs made given with
  | nil => simpa [Handles.run, answers, allocations] using hn
  | cons act acts ih =>
    rw [allocations, ← Nat.add_assoc] at hroom ⊢
    rw [answers, ← List.append_assoc]
    exact ih (hn.perform act (by omega)) hroom

theorem run_gone {acts : List Act} (hroom : made + allocations acts hs < 4294967295) {h : Handle}
    {object : ObjectId} (hgiven : (h, object) ∈ given) (hgone : hs.object? h = none) :
    (Handles.run acts hs).object? h = none := by
  induction acts generalizing hs made given with
  | nil => exact hgone
  | cons act acts ih =>
    rw [allocations, ← Nat.add_assoc] at hroom
    exact ih (hn.perform act (by omega)) hroom (List.mem_append_left _ hgiven)
      (hn.perform_gone act hgiven hgone)

end Numbered

/-- A handle never changes its meaning in a run of a new table that makes fewer handles than there
are numbers. It is given for one object only; whenever it is live, it was given and has this object;
and once it was given and is gone, it is never live again. -/
theorem handle_final (limit : Nat) {acts : List Act}
    (hroom : allocations acts { limit } < 4294967295) :
    (∀ h object object', (h, object) ∈ answers acts { limit } →
        (h, object') ∈ answers acts { limit } → object = object') ∧
      (∀ before, before <+: acts → ∀ h,
        (∀ object, (run before { limit }).object? h = some object →
          (h, object) ∈ answers before { limit }) ∧
        ∀ object, (h, object) ∈ answers acts { limit } →
          (run before { limit }).object? h = none ∨
            (run before { limit }).object? h = some object) ∧
      ∀ before middle, before ++ middle <+: acts → ∀ h object,
        (h, object) ∈ answers before { limit } → (run before { limit }).object? h = none →
          (run (before ++ middle) { limit }).object? h = none := by
  have hstart := Numbered.start limit
  have hfront {front : List Act} (hbegins : front <+: acts) :
      allocations front { limit } < 4294967295 := by
    obtain ⟨back, rfl⟩ := hbegins
    rw [allocations_append] at hroom
    omega
  have hnumbered {front : List Act} (hbegins : front <+: acts) :
      (run front { limit }).Numbered (allocations front { limit }) (answers front { limit }) := by
    have hfew : 0 + allocations front { limit } < 4294967295 := by
      rw [Nat.zero_add]
      exact hfront hbegins
    have hrun := hstart.run hfew
    rwa [Nat.zero_add, List.nil_append] at hrun
  have hunique : ∀ h object object', (h, object) ∈ answers acts { limit } →
      (h, object') ∈ answers acts { limit } → object = object' := fun h object object' hp hq =>
    (hnumbered (List.prefix_refl acts)).unique _ hp _ hq rfl
  refine ⟨hunique, fun before hbefore h => ?_, ?_⟩
  · have hlive := (hnumbered hbefore).live h
    refine ⟨hlive, fun object hgiven => ?_⟩
    cases hobject : (run before { limit }).object? h with
    | none => exact .inl rfl
    | some object' =>
      obtain ⟨after, rfl⟩ := hbefore
      have hgiven' : (h, object') ∈ answers (before ++ after) { limit } := by
        rw [answers_append]
        exact List.mem_append_left _ (hlive object' hobject)
      exact .inr (congrArg some (hunique h object' object hgiven' hgiven))
  · intro before middle hbegins h object hgiven hgone
    have hsplit := hfront hbegins
    rw [allocations_append] at hsplit
    rw [run_append]
    exact (hnumbered ((List.prefix_append _ _).trans hbegins)).run_gone hsplit hgiven hgone

/-- One handle is evicted and others are cleared; their objects get new numbers. -/
theorem handle_final_cleared :
    let acts : List Act := [.track 10 "Point", .track 20 "Point", .track 30 "Line",
      .pin ⟨2⟩, .track 10 "Point", .clearUnpinned, .track 20 "Point", .track 30 "Line"]
    let empty : Handles := { limit := 2 }
    allocations acts empty < 4294967295 ∧
      answers acts empty = [(⟨1⟩, 10), (⟨2⟩, 20), (⟨3⟩, 30), (⟨4⟩, 10), (⟨2⟩, 20), (⟨5⟩, 30)] ∧
      (run acts empty).object? ⟨1⟩ = none ∧ (run acts empty).object? ⟨2⟩ = some 20 := by
  intro acts empty
  have hroom : allocations acts empty < 4294967295 := by decide +kernel
  have hanswers : answers acts empty =
      [(⟨1⟩, 10), (⟨2⟩, 20), (⟨3⟩, 30), (⟨4⟩, 10), (⟨2⟩, 20), (⟨5⟩, 30)] := by decide +kernel
  obtain ⟨-, hmeans, hgone⟩ := handle_final 2 hroom
  refine ⟨hroom, hanswers, ?_, ?_⟩
  · exact hgone (acts.take 3) (acts.drop 3) (List.prefix_refl acts) ⟨1⟩ 10 (by decide +kernel)
      (by decide +kernel)
  · refine ((hmeans acts (List.prefix_refl acts) ⟨2⟩).2 20 ?_).resolve_left (by decide +kernel)
    exact hanswers ▸ by decide

end Handles

end Debugger
