import Debugger.Proofs.Calls
import Debugger.Proofs.Integers

/-!
The length and the characters of a string. The length counts the units of UTF-16, an index counts
characters: the two agree on the strings of the basic plane.
-/

namespace Debugger

open Syntax

namespace Text

/-- Whether a character lies beyond the basic plane, where it takes two units. -/
def isSupplementary (c : Char) : Bool :=
  0x10000 ≤ c.toNat

theorem units16_eq (cs : List Char) : units16 cs = cs.length + cs.countP isSupplementary := by
  induction cs with
  | nil => rfl
  | cons c cs ih =>
    rw [units16, ih, List.length_cons, List.countP_cons]
    by_cases h : c.toNat < 0x10000
    · simp [isSupplementary, h, Nat.not_le.mpr h]
      omega
    · simp [isSupplementary, h, Nat.not_lt.mp h]
      omega

theorem units16_eq_length_iff (cs : List Char) :
    units16 cs = cs.length ↔ ∀ c ∈ cs, c.toNat < 0x10000 := by
  rw [units16_eq, Nat.add_eq_left, List.countP_eq_zero]
  simp [isSupplementary]

end Text

namespace Scope

variable {scope : Scope} {hole : String → Eval Value}

theorem ownerOf_value {e : Expr} {x : Eval Value} {v : Value} {l l' : Link} (h : x l = .ok v l') :
    ownerOf e x l = .ok (.value v) l' := by
  have hattempt : x.attempt l = .ok (.ok v) l' := by rw [Eval.attempt, h]
  rw [ownerOf, Eval.bind_run hattempt]
  rfl

theorem evaluate_length {target : Expr} {s : String} {handle : Option ObjectId} {l l₁ : Link}
    (htext : scope.evaluate hole target l = .ok (.text s handle) l₁) (safe : Bool) :
    scope.evaluate hole (.member target "length" safe) l = .ok (Value.stringLength s) l₁ := by
  rw [evaluate, Eval.bind_run (ownerOf_value htext)]
  rfl

theorem evaluate_lengthCall {target : Expr} {s : String} {handle : Option ObjectId} {l l₁ : Link}
    (htext : scope.evaluate hole target l = .ok (.text s handle) l₁) (safe : Bool) :
    scope.evaluate hole (.call (some target) "length" [] safe) l =
      .ok (Value.stringLength s) l₁ := by
  rw [evaluate, Eval.bind_run (ownerOf_value htext)]
  rfl

/-- An index is a position among the characters. -/
theorem evaluate_textIndex {target i : Expr} {s : String} {handle : Option ObjectId}
    {l l₁ l₂ : Link} {n : Int} (htext : scope.evaluate hole target l = .ok (.text s handle) l₁)
    (hi : scope.Yields hole i l₁ n l₂) :
    scope.evaluate hole (.index target i) l =
      match if n < 0 then none else s.toList[n.toNat]? with
      | some c => .ok (.primitive (.char c)) l₂
      | none => .error (.indexOutOfBounds n s.toList.length) l₂ := by
  obtain ⟨p, hp, hn⟩ := hi
  obtain ⟨v, hv, rfl⟩ := Primitive.exists_integer hn
  obtain ⟨w, l', hw, hunboxed⟩ := Eval.bind_ok hp
  have hindex : indexOf (.primitive p) = pure v := by
    simp only [indexOf, Value.integer?, hv]
  rw [evaluate, Eval.bind_run htext, Eval.bind_run hw, index, Eval.bind_run hunboxed]
  simp only [hindex, pure_bind]
  cases (if v.toInt < 0 then none else s.toList[v.toInt.toNat]?) <;> rfl

/-- The length counts in the 32 bits of an `int`, each supplementary character twice. An index takes
a character exactly if it lies before the number of characters, and otherwise fails with that
number. Up to the greatest length the two numbers are the same exactly for the strings without
supplementary characters. -/
theorem textIndex_length {target : Expr} {s : String} {handle : Option ObjectId} {l l₁ : Link}
    (htext : scope.evaluate hole target l = .ok (.text s handle) l₁) (safe : Bool) :
    let count := s.toList.length
    let length := Int32.ofNat (count + s.toList.countP Text.isSupplementary)
    scope.evaluate hole (.member target "length" safe) l = .ok (.int length) l₁ ∧
    scope.evaluate hole (.call (some target) "length" [] safe) l = .ok (.int length) l₁ ∧
    (∀ i n l₂, scope.Yields hole i l₁ n l₂ →
      (0 ≤ n ∧ n < count → ∃ c, s.toList[n.toNat]? = some c ∧
        scope.evaluate hole (.index target i) l = .ok (.primitive (.char c)) l₂) ∧
      (¬ (0 ≤ n ∧ n < count) →
        scope.evaluate hole (.index target i) l = .error (.indexOutOfBounds n count) l₂)) ∧
    (Text.units16 s.toList < 2 ^ 31 →
      (length.toInt = count ↔ ∀ c ∈ s.toList, c.toNat < 0x10000)) := by
  intro count length
  have hlength : Value.stringLength s = .int length := by
    rw [Value.stringLength, Text.units16_eq]
  refine ⟨hlength ▸ evaluate_length htext safe, hlength ▸ evaluate_lengthCall htext safe, ?_, ?_⟩
  · intro i n l₂ hi
    rw [evaluate_textIndex htext hi]
    constructor
    · rintro ⟨hnonneg, hlt⟩
      have hbound : n.toNat < count := by omega
      refine ⟨s.toList[n.toNat], List.getElem?_eq_getElem hbound, ?_⟩
      simp only [Int.not_lt.mpr hnonneg, ↓reduceIte, List.getElem?_eq_getElem hbound]
    · intro hout
      have hnone : (if n < 0 then none else s.toList[n.toNat]?) = none := by
        split
        · rfl
        · apply List.getElem?_eq_none
          omega
      simp only [hnone]
      rfl
  · intro hsmall
    rw [← Text.units16_eq_length_iff, ← Int.natCast_inj]
    have hfits : length.toInt = Text.units16 s.toList := by
      rw [Text.units16_eq] at hsmall ⊢
      exact Int32.toInt_ofNat_of_lt hsmall
    rw [hfits]

/-- A string of two characters in the target: the second one, and none at the index minus one. -/
theorem textIndex_length_basic :
    let scope : Scope := ⟨2, 3, {}⟩
    let frame : Frame := ⟨3, 1, none, 7, [⟨"s", TypeName.string, .string 4⟩]⟩
    let l : Link := { target := { heap := [(4, .string "né")], threads := [⟨2, true, [frame]⟩] } }
    ∃ l₁, scope.run (.member (.name "s") "length" false) l = .ok (.int 2) l₁ ∧
      scope.run (.index (.name "s") (.literal (.int 1))) l = .ok (.primitive (.char 'é')) l₁ ∧
      scope.run (.index (.name "s") (.literal (.int (-1)))) l =
        .error (.indexOutOfBounds (-1) 2) l₁ := by
  intro scope frame l
  let hole (source : String) := scope.evaluateHole (source.utf8ByteSize / 5 + 1) source
  let l₁ : Link := { l with calls := 3 }
  have htext : scope.evaluate hole (.name "s") l = .ok (.text "né" (some 4)) l₁ := rfl
  obtain ⟨hlength, -, hindex, -⟩ := textIndex_length htext false
  have hlast := (hindex (.literal (.int 1)) 1 l₁ ⟨.int 1, rfl, rfl⟩).1 ⟨by decide, by decide +kernel⟩
  have hout := (hindex (.literal (.int (-1))) (-1) l₁ ⟨.int (-1), rfl, rfl⟩).2 fun h => by omega
  obtain ⟨c, hc, hlast⟩ := hlast
  obtain rfl : 'é' = c := Option.some.inj hc
  exact ⟨l₁, hlength, hlast, hout⟩

/-- A string of one character has length two, and no character at index one. -/
theorem textIndex_length_supplementary :
    let scope : Scope := ⟨0, 0, {}⟩
    let l : Link := { target := {} }
    let text : Expr := .literal (.string "😀")
    scope.run (.member text "length" false) l = .ok (.int 2) l ∧
    scope.run (.index text (.literal (.int 1))) l = .error (.indexOutOfBounds 1 1) l := by
  intro scope l text
  exact ⟨rfl, rfl⟩

end Scope
end Debugger
