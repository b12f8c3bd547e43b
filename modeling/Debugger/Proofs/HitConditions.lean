import Debugger.Proofs.Growth
import Debugger.Proofs.IntegerLiterals
import Debugger.Proofs.Runs

/-!
Hit conditions: which texts are read as one, and that none that a registry holds divides by zero.
-/

namespace Debugger

open Text

/-! ### Blanks at the ends -/

theorem trimBlanks_before {blanks : List Char} (h : blanks.all isBlank = true) (cs : List Char) :
    trimBlanks (blanks ++ cs) = trimBlanks cs := by
  rw [trimBlanks, List.dropWhile_append_of_pos (List.all_eq_true.mp h), trimBlanks]

theorem trimBlanks_behind {cs blanks : List Char} (hcs : cs ≠ [])
    (hhead : ∀ c ∈ cs.head?, isBlank c = false) (hlast : ∀ c ∈ cs.getLast?, isBlank c = false)
    (h : blanks.all isBlank = true) : trimBlanks (cs ++ blanks) = cs := by
  have hfront : (cs ++ blanks).dropWhile isBlank = cs ++ blanks := by
    obtain ⟨c, more, rfl⟩ := List.exists_cons_of_ne_nil hcs
    exact List.dropWhile_cons_of_neg (Bool.eq_false_iff.mp (hhead c rfl))
  have hback : (blanks.reverse ++ cs.reverse).dropWhile isBlank = cs.reverse := by
    refine (Syntax.takeWhile_stopped ?_ ?_).2
    · rwa [List.all_reverse]
    · rw [List.head?_reverse]
      exact (Option.any_eq_false _ _).mpr hlast
  rw [trimBlanks, hfront, List.reverse_append, hback, List.reverse_reverse]

/-- What is left of a text is the text without the blanks at its ends. -/
theorem trimBlanks_eq (cs : List Char) : ∃ before behind, cs = before ++ (trimBlanks cs ++ behind) ∧
    before.all isBlank = true ∧ behind.all isBlank = true := by
  refine ⟨cs.takeWhile isBlank, ((cs.dropWhile isBlank).reverse.takeWhile isBlank).reverse, ?_,
    List.all_takeWhile, by rw [List.all_reverse]; exact List.all_takeWhile⟩
  rw [trimBlanks, ← List.reverse_append, List.takeWhile_append_dropWhile, List.reverse_reverse,
    List.takeWhile_append_dropWhile]

/-! ### Texts of hit conditions -/

namespace HitCondition

inductive Operator where
  | equal | atLeast | greaterThan | multiple

namespace Operator

/-- How an operator is written; without one, a condition is an equality. -/
def marks : Operator → List (List Char)
  | equal => [[], ['=', '=']]
  | atLeast => [['>', '=']]
  | greaterThan => [['>']]
  | multiple => [['%']]

def condition : Operator → Nat → HitCondition
  | equal => .equal
  | atLeast => .atLeast
  | greaterThan => .greaterThan
  | multiple => .multiple

end Operator

/-- A condition as it is written: an operator and a number, which may have a plus, with blanks
around either. -/
structure Spelling where
  operator : Operator
  mark : List Char
  sign : List Char
  digits : List Char
  before : List Char
  between : List Char
  behind : List Char
  mark_mem : mark ∈ operator.marks
  sign_mem : sign ∈ Syntax.signs
  digits_ne : digits ≠ []
  digits_all : digits.all Char.isDigit = true
  before_all : before.all isBlank = true
  between_all : between.all isBlank = true
  behind_all : behind.all isBlank = true

namespace Spelling

def chars (s : Spelling) : List Char :=
  s.before ++ (s.mark ++ (s.between ++ (s.sign ++ (s.digits ++ s.behind))))

/-- The number that the digits write. -/
def value (s : Spelling) : Nat :=
  Nat.ofDigits 10 (s.digits.reverse.map digitValue)

def condition (s : Spelling) : HitCondition :=
  s.operator.condition s.value

end Spelling

/-! ### Operators and numbers -/

/-- The characters of operators. -/
def operatorChars : List Char :=
  ['=', '>', '%']

theorem of_mem_operatorChars {c : Char} (h : c ∈ operatorChars) :
    isBlank c = false ∧ c ≠ '+' ∧ c.isDigit = false := by
  simp only [operatorChars, List.mem_cons, List.not_mem_nil, or_false] at h
  rcases h with rfl | rfl | rfl <;> exact ⟨rfl, by decide, rfl⟩

theorem Operator.mem_operatorChars {operator : Operator} {mark : List Char}
    (hmark : mark ∈ operator.marks) : mark ⊆ operatorChars := by
  cases operator with
  | equal =>
    simp only [Operator.marks, List.mem_cons, List.not_mem_nil, or_false] at hmark
    rcases hmark with rfl | rfl <;> simp [operatorChars]
  | atLeast | greaterThan | multiple =>
    obtain rfl := List.mem_singleton.mp hmark
    simp [operatorChars]

theorem splitOperator_eq (cs : List Char) : ∃ operator mark, mark ∈ Operator.marks operator ∧
    cs = mark ++ (splitOperator cs).2 ∧ (splitOperator cs).1 = operator.condition := by
  fun_cases splitOperator cs
  · exact ⟨.equal, ['=', '='], by simp [Operator.marks], rfl, rfl⟩
  · exact ⟨.atLeast, ['>', '='], by simp [Operator.marks], rfl, rfl⟩
  · exact ⟨.greaterThan, ['>'], by simp [Operator.marks], rfl, rfl⟩
  · exact ⟨.multiple, ['%'], by simp [Operator.marks], rfl, rfl⟩
  · exact ⟨.equal, [], by simp [Operator.marks], rfl, rfl⟩

/-- An operator is split off in front of what is none and goes on with none. -/
theorem splitOperator_append {operator : Operator} {mark rest : List Char}
    (hmark : mark ∈ operator.marks) (hrest : ∀ c ∈ rest.head?, c ∉ operatorChars) :
    splitOperator (mark ++ rest) = (operator.condition, rest) := by
  have hne {c : Char} (hc : c ∈ operatorChars) (more : List Char) : rest ≠ c :: more := by
    rintro rfl
    exact hrest c rfl hc
  have hequal := hne (show '=' ∈ operatorChars by simp [operatorChars])
  have hgreater := hne (show '>' ∈ operatorChars by simp [operatorChars])
  have hpercent := hne (show '%' ∈ operatorChars by simp [operatorChars])
  cases operator with
  | equal =>
    simp only [Operator.marks, List.mem_cons, List.not_mem_nil, or_false] at hmark
    rcases hmark with rfl | rfl
    · exact splitOperator.eq_5 rest (fun more => hequal ('=' :: more))
        (fun more => hgreater ('=' :: more)) hgreater hpercent
    · rfl
  | atLeast | multiple =>
    obtain rfl := List.mem_singleton.mp hmark
    rfl
  | greaterThan =>
    obtain rfl := List.mem_singleton.mp hmark
    exact splitOperator.eq_3 rest hequal

theorem readNat?_eq_some {bits : Nat} {cs : List Char} {n : Nat} :
    readNat? bits cs = some n ↔ ∃ sign ∈ Syntax.signs, ∃ digits, cs = sign ++ digits ∧
      digits ≠ [] ∧ digits.all Char.isDigit = true ∧
        n = Nat.ofDigits 10 (digits.reverse.map digitValue) ∧ n < 2 ^ bits := by
  have hread (digits : List Char) :
      (if !digits.isEmpty && digits.all Char.isDigit && ofDigits 10 digits < Nat.pow 2 bits
        then some (ofDigits 10 digits) else none) = some n ↔
      digits ≠ [] ∧ digits.all Char.isDigit = true ∧
        n = Nat.ofDigits 10 (digits.reverse.map digitValue) ∧ n < 2 ^ bits := by
    rw [← Syntax.ofDigits_eq]
    constructor
    · intro h
      obtain ⟨hcond, hn⟩ := Option.ite_none_right_eq_some.mp h
      obtain rfl := Option.some.inj hn
      simpa [and_assoc] using hcond
    · rintro ⟨hne, hall, rfl, hlt⟩
      exact if_pos (by simpa [hne, hall] using hlt)
  simp only [readNat?]
  rw [hread]
  constructor
  · intro h
    obtain ⟨sign, hsign, hcs⟩ := Syntax.exists_sign cs
    exact ⟨sign, hsign, _, hcs, h⟩
  · rintro ⟨sign, hsign, digits, rfl, hdigits⟩
    rwa [Syntax.unsigned_append hsign hdigits.2.1 (by decide)]

/-! ### Reading a condition -/

namespace Spelling

variable (s : Spelling)

/-- The number as it is written. -/
def number (s : Spelling) : List Char :=
  s.sign ++ s.digits

theorem number_ne_nil : s.number ≠ [] :=
  List.append_ne_nil_of_right_ne_nil s.sign s.digits_ne

theorem number_char {c : Char} (hc : c ∈ s.number) : c = '+' ∨ c.isDigit = true := by
  rcases List.mem_append.mp hc with hsign | hdigit
  · have h := s.sign_mem
    simp only [Syntax.signs, List.mem_cons, List.not_mem_nil, or_false] at h
    rcases h with h | h <;> rw [h] at hsign
    · contradiction
    · exact .inl (List.mem_singleton.mp hsign)
  · exact .inr (List.all_eq_true.mp s.digits_all c hdigit)

theorem isBlank_number {c : Char} (hc : c ∈ s.number) : isBlank c = false := by
  rcases s.number_char hc with rfl | hdigit
  · decide
  · exact Syntax.isBlank_of_isDigit hdigit

theorem trim_number {blanks : List Char} (h : blanks.all isBlank = true) :
    trimBlanks (s.number ++ blanks) = s.number :=
  trimBlanks_behind s.number_ne_nil (fun _ hc => s.isBlank_number (List.mem_of_mem_head? hc))
    (fun _ hc => s.isBlank_number (List.mem_of_mem_getLast? hc)) h

theorem head_number {blanks : List Char} (h : blanks.all isBlank = true) :
    ∀ c ∈ (blanks ++ s.number).head?, c ∉ operatorChars := by
  intro c hc hmem
  obtain ⟨hblank, hplus, hdigit⟩ := of_mem_operatorChars hmem
  rcases List.mem_append.mp (List.mem_of_mem_head? hc) with hc | hc
  · exact absurd (List.all_eq_true.mp h c hc) (Bool.eq_false_iff.mp hblank)
  · rcases s.number_char hc with hc | hc
    · exact hplus hc
    · exact absurd hc (Bool.eq_false_iff.mp hdigit)

/-- The operator of a written condition is split off in front of the number. -/
theorem splitOperator_chars : ∃ blanks : List Char, blanks.all isBlank = true ∧
    splitOperator (trimBlanks s.chars) = (s.operator.condition, blanks ++ s.number) := by
  have hchars : s.chars = s.before ++ (s.mark ++ (s.between ++ (s.number ++ s.behind))) := by
    simp [chars, number]
  rw [hchars, trimBlanks_before s.before_all]
  by_cases hmark : s.mark = []
  · -- without an operator, all blanks in front of the number are at the end of the text
    have hsplit : splitOperator (s.mark ++ ([] ++ s.number)) = _ :=
      splitOperator_append s.mark_mem (s.head_number rfl)
    refine ⟨[], rfl, ?_⟩
    rw [hmark, List.nil_append] at hsplit ⊢
    rw [trimBlanks_before s.between_all, s.trim_number s.behind_all]
    exact hsplit
  · refine ⟨s.between, s.between_all, ?_⟩
    have htrim : trimBlanks (s.mark ++ (s.between ++ s.number) ++ s.behind) =
        s.mark ++ (s.between ++ s.number) := by
      refine trimBlanks_behind (List.append_ne_nil_of_left_ne_nil hmark _) ?_ ?_ s.behind_all
      · intro c hc
        rw [List.head?_append_of_ne_nil _ hmark] at hc
        have hmem := Operator.mem_operatorChars s.mark_mem (List.mem_of_mem_head? hc)
        exact (of_mem_operatorChars hmem).1
      · intro c hc
        rw [← List.append_assoc, List.getLast?_append_of_ne_nil _ s.number_ne_nil] at hc
        exact s.isBlank_number (List.mem_of_mem_getLast? hc)
    rw [List.append_assoc, List.append_assoc] at htrim
    rw [htrim]
    exact splitOperator_append s.mark_mem (s.head_number s.between_all)

/-- A written condition is read as it is meant, unless its number is too large or it asks for the
multiples of zero. -/
theorem parse?_chars {text : String} (htext : text.toList = s.chars) (hvalue : s.value < 2 ^ 64) :
    parse? text = if s.condition = .multiple 0 then none else some s.condition := by
  obtain ⟨blanks, hblanks, hsplit⟩ := s.splitOperator_chars
  have hnumber : trimBlanks (blanks ++ s.number) = s.number := by
    have htrim : trimBlanks (s.number ++ []) = s.number := s.trim_number rfl
    rw [List.append_nil] at htrim
    rw [trimBlanks_before hblanks, htrim]
  have hread : readNat? 64 s.number = some s.value :=
    readNat?_eq_some.mpr ⟨s.sign, s.sign_mem, s.digits, rfl, s.digits_ne, s.digits_all, rfl, hvalue⟩
  unfold parse?
  rw [htext, hsplit]
  dsimp only
  rw [hnumber, hread]
  rfl

end Spelling

/-- What is read as a condition is written as one. -/
theorem exists_spelling {text : String} {c : HitCondition} (h : parse? text = some c) :
    ∃ s : Spelling, text.toList = s.chars ∧ s.value < 2 ^ 64 ∧ s.condition = c ∧
      c ≠ .multiple 0 := by
  obtain ⟨before, behind, htext, hbefore, hbehind⟩ := trimBlanks_eq text.toList
  obtain ⟨operator, mark, hmark, hsplit, hoperator⟩ := splitOperator_eq (trimBlanks text.toList)
  unfold parse? at h
  dsimp only at h
  rw [hoperator] at h
  obtain ⟨between, inner, hrest, hbetween, hinner⟩ :=
    trimBlanks_eq (splitOperator (trimBlanks text.toList)).2
  split at h
  · contradiction
  · rename_i n hread
    obtain ⟨sign, hsign, digits, hnumber, hne, hall, rfl, hlt⟩ := readNat?_eq_some.mp hread
    obtain ⟨hzero, hc⟩ := Option.ite_none_left_eq_some.mp h
    obtain rfl := Option.some.inj hc
    refine ⟨⟨operator, mark, sign, digits, before, between, inner ++ behind, hmark, hsign, hne,
      hall, hbefore, hbetween, ?_⟩, ?_, hlt, rfl, hzero⟩
    · rw [List.all_append, hinner, hbehind]
      rfl
    · rw [hnumber] at hrest
      rw [hrest] at hsplit
      rw [htext, hsplit]
      simp [Spelling.chars]

/-- The text of a condition is an operator and the number, with a space between them. -/
theorem toList_text (operator : Operator) (n : Nat) : ∃ mark ∈ operator.marks,
    (operator.condition n).text.toList = mark ++ ' ' :: Nat.toDigits 10 n := by
  have htext (front : String) :
      (toString front ++ toString n).toList = front.toList ++ Nat.toDigits 10 n := by
    rw [String.toList_append, Nat.toString_eq_ofList_toDigits, String.toList_ofList]
    rfl
  cases operator with
  | equal => exact ⟨['=', '='], by simp [Operator.marks], htext "== "⟩
  | atLeast => exact ⟨['>', '='], by simp [Operator.marks], htext ">= "⟩
  | greaterThan => exact ⟨['>'], by simp [Operator.marks], htext "> "⟩
  | multiple => exact ⟨['%'], by simp [Operator.marks], htext "% "⟩

/-- The text of a condition that was read is read as the same. -/
theorem parse?_text {text : String} {c : HitCondition} (h : parse? text = some c) :
    parse? c.text = some c := by
  obtain ⟨s, -, hlt, rfl, hzero⟩ := exists_spelling h
  obtain ⟨mark, hmark, htext⟩ := toList_text s.operator s.value
  let printed : Spelling := {
    operator := s.operator, mark, sign := [], digits := Nat.toDigits 10 s.value
    before := [], between := [' '], behind := []
    mark_mem := hmark, sign_mem := by decide, digits_ne := Nat.toDigits_ne_nil
    digits_all := List.all_eq_true.mpr fun _ => Syntax.isDigit_toDigits
    before_all := rfl, between_all := rfl, behind_all := rfl }
  have hvalue : printed.value = s.value :=
    (Syntax.ofDigits_eq 10 _).symm.trans (Syntax.ofDigits_toDigits s.value)
  have hcondition : printed.condition = s.condition := congrArg s.operator.condition hvalue
  have hchars : s.condition.text.toList = printed.chars := by
    rw [Spelling.condition, htext]
    simp [Spelling.chars, printed]
  rw [printed.parse?_chars hchars (hvalue ▸ hlt), hcondition]
  exact if_neg hzero

/-- Whether the hit with this number takes effect, where a division by zero has no answer. -/
def holds? (count : Nat) : HitCondition → Option Bool
  | multiple 0 => none
  | c => some (c.holds count)

theorem holds?_eq {c : HitCondition} (h : c ≠ .multiple 0) (count : Nat) :
    c.holds? count = some (c.holds count) := by
  unfold holds?
  split
  · contradiction
  · rfl

end HitCondition

/-! ### Conditions in a registry -/

namespace Registry

open HitCondition (parse?)

/-- Every hit condition was read from a text. -/
def Conditioned (r : Registry) : Prop :=
  ∀ b ∈ r.breakpoints, ∀ c ∈ b.hitCondition, ∃ text, parse? text = some c

variable {r r' : Registry}

/-- A registry whose breakpoints have the conditions of others. -/
theorem Conditioned.of_same (h : r.Conditioned)
    (hsame : ∀ b' ∈ r'.breakpoints, ∃ b ∈ r.breakpoints, b'.hitCondition = b.hitCondition) :
    r'.Conditioned := by
  intro b' hb' c hc
  obtain ⟨b, hb, hcondition⟩ := hsame b' hb'
  exact h b hb c (hcondition ▸ hc)

theorem Conditioned.of_grows (h : r.Conditioned) (hgrows : r.Grows r') : r'.Conditioned := by
  obtain ⟨g, hg, hbreakpoints⟩ := hgrows.breakpoints
  refine h.of_same fun b' hb' => ?_
  obtain ⟨b, hb, rfl⟩ := List.mem_map.mp (hbreakpoints ▸ hb')
  exact ⟨b, hb, (hg b).hitCondition_eq⟩

theorem Conditioned.update (h : r.Conditioned) (id : BreakpointId) {f : Breakpoint → Breakpoint}
    (hf : ∀ b ∈ r.breakpoints, ∃ b' ∈ r.breakpoints, (f b).hitCondition = b'.hitCondition) :
    (r.update id f).Conditioned := by
  refine h.of_same fun b' hb' => ?_
  obtain ⟨b, hb, rfl⟩ := List.mem_map.mp hb'
  split
  · exact hf b hb
  · exact ⟨b, hb, rfl⟩

theorem readHitCondition_ok {text : Option String} {condition : Option HitCondition}
    (h : readHitCondition text = .ok condition) :
    ∀ c ∈ condition, ∃ text, parse? text = some c := by
  intro c hc
  unfold readHitCondition at h
  split at h
  · obtain rfl := Except.ok.inj h
    exact absurd hc (by simp)
  · rename_i text
    refine ⟨text, ?_⟩
    cases hread : parse? text with
    | none =>
      rw [hread] at h
      exact absurd h (by simp)
    | some c' =>
      rw [hread] at h
      obtain rfl := Except.ok.inj h
      exact hc

theorem accept_condition {spec : BreakpointSpec} {b : Breakpoint} (h : r.accept spec = .ok b) :
    ∀ c ∈ b.hitCondition, ∃ text, parse? text = some c := by
  simp only [accept, bind, Except.bind] at h
  split at h
  · contradiction
  · rename_i condition hread
    split at h
    · contradiction
    · cases h
      exact readHitCondition_ok hread

theorem Conditioned.recordHit (h : r.Conditioned) (request : RequestId) :
    (r.recordHit request).2.Conditioned := by
  cases hb : (r.owner? request).bind r.find? with
  | none =>
    simp only [Registry.recordHit, hb]
    exact h
  | some b =>
    obtain ⟨id, -, hfind⟩ := Option.bind_eq_some_iff.mp hb
    simp only [Registry.recordHit, hb]
    refine h.update _ fun _ _ => ⟨b, List.mem_of_find?_eq_some hfind, ?_⟩
    cases b.enabled <;> rfl

/-- No operation brings a condition into a registry that was not read from a text. -/
theorem Conditioned.step {s : Registry × Link} (h : s.1.Conditioned) (act : Act) :
    (step s act).1.Conditioned := by
  obtain ⟨r, l⟩ := s
  cases act with
  | register spec =>
    obtain ⟨-, hsame | ⟨b, b', haccept, hgrows, hadded⟩⟩ := register_grows r spec l
    · exact h.of_same fun b hb => ⟨b, hsame ▸ hb, rfl⟩
    · intro c hc
      change c ∈ (r.register spec l).1.2.breakpoints at hc
      rw [hadded] at hc
      rcases List.mem_append.mp hc with hold | hnew
      · exact h c hold
      · obtain rfl := List.mem_singleton.mp hnew
        rw [hgrows.hitCondition_eq]
        exact accept_condition haccept
  | onTypeLoaded type => exact h.of_grows (onTypeLoaded_grows type r l)
  | rescan => exact h.of_grows (rescan_grows r l)
  | remove id =>
    refine h.of_same fun b hb => ⟨b, ?_, rfl⟩
    change b ∈ (r.remove id l).1.2.breakpoints at hb
    rw [(remove_breakpoints r id l).2] at hb
    exact List.mem_of_mem_filter hb
  | setEnabled id enabled =>
    change (r.setEnabled id enabled l).1.2.Conditioned
    rcases setEnabled_registry r id enabled l with hout | hout <;> rw [hout]
    · exact h
    · exact h.update id fun b hb => ⟨b, hb, rfl⟩
  | recordHit request => exact h.recordHit request
  | decide settings request thread =>
    have hout : (Gate.decide settings r request thread l).1.2 = (r.recordHit request).2 := by
      simp only [Gate.decide]
      rcases r.recordHit request with ⟨_ | b, r'⟩ <;> rfl
    change (Gate.decide settings r request thread l).1.2.Conditioned
    rw [hout]
    exact h.recordHit request
  | clear =>
    intro b hb
    change b ∈ [] at hb
    contradiction
  | change c => exact h

theorem Conditioned.run {s : Registry × Link} (h : s.1.Conditioned) (acts : List Act) :
    (run acts s).1.Conditioned := by
  induction acts generalizing s with
  | nil => exact h
  | cons act acts ih => exact ih (h.step act)

end Registry

/-- A text is read as a hit condition if and only if it is written as one with a number of 64 bits
and does not ask for the multiples of zero. The condition's own text is read as the same. In a
registry there are no other conditions, whatever is done with it, and no hit makes one of them
divide by zero. -/
theorem hitConditions_exact :
    (∀ text c, HitCondition.parse? text = some c ↔ ∃ s : HitCondition.Spelling,
        text.toList = s.chars ∧ s.value < 2 ^ 64 ∧ s.condition = c ∧ c ≠ .multiple 0) ∧
      (∀ text c, HitCondition.parse? text = some c → HitCondition.parse? c.text = some c) ∧
      ∀ settings refuses acts,
        ∀ b ∈ (Registry.run acts (Registry.start settings refuses)).1.breakpoints,
        ∀ c ∈ b.hitCondition, (∃ text, HitCondition.parse? text = some c) ∧ c ≠ .multiple 0 ∧
          ∀ count, c.holds? count = some (c.holds count) := by
  refine ⟨fun text c => ⟨HitCondition.exists_spelling, ?_⟩, fun _ _ => HitCondition.parse?_text,
    fun settings refuses acts b hb c hc => ?_⟩
  · rintro ⟨s, htext, hvalue, rfl, hzero⟩
    rw [s.parse?_chars htext hvalue, if_neg hzero]
  · have hstart : (Registry.start settings refuses).1.Conditioned := fun _ => nofun
    obtain ⟨text, hread⟩ := hstart.run acts b hb c hc
    obtain ⟨-, -, -, -, hzero⟩ := HitCondition.exists_spelling hread
    exact ⟨⟨text, hread⟩, hzero, HitCondition.holds?_eq hzero⟩

/-- The largest number is read between blanks, with a plus and a zero in front, and again as it is
printed. A breakpoint counts multiples of two. -/
theorem hitConditions_exact_largest :
    HitCondition.parse? "\u00A0>= +018446744073709551615\t" = some (.atLeast (2 ^ 64 - 1)) ∧
      HitCondition.parse? ">= 18446744073709551615" = some (.atLeast (2 ^ 64 - 1)) ∧
      (HitCondition.multiple 2).holds? 3 = some false := by
  have hread : HitCondition.parse? "\u00A0>= +018446744073709551615\t" =
      some (.atLeast (2 ^ 64 - 1)) :=
    (hitConditions_exact.1 _ _).mpr ⟨{
      operator := .atLeast, mark := ['>', '='], sign := ['+']
      digits := "018446744073709551615".toList
      before := ['\u00A0'], between := [' '], behind := ['\t']
      mark_mem := by simp [HitCondition.Operator.marks], sign_mem := by decide
      digits_ne := by decide, digits_all := by decide
      before_all := by decide, between_all := by decide, behind_all := by decide },
      by decide +kernel, by decide +kernel, by decide +kernel, by decide⟩
  let even : BreakpointSpec := { site := .line "B.kt" 3, hitCondition := some "%2" }
  have hbreakpoint : ∃ b ∈ (Registry.run [.register even]
      (Registry.start {} fun _ _ => none)).1.breakpoints, b.hitCondition = some (.multiple 2) := by
    decide +kernel
  obtain ⟨b, hb, hc⟩ := hbreakpoint
  have hprinted : (HitCondition.atLeast (2 ^ 64 - 1)).text = ">= 18446744073709551615" := by
    decide +kernel
  refine ⟨hread, ?_, (hitConditions_exact.2.2 _ _ _ b hb _ hc).2.2 3⟩
  rw [← hprinted]
  exact hitConditions_exact.2.1 _ _ hread

end Debugger
