import Mathlib.Logic.Relation
import Debugger.Proofs.Attaching
import Debugger.Proofs.Calls
import Debugger.Proofs.Formation

/-!
The overload that a call takes: what is known of the arguments from their having converted to its
parameters. Selecting leaves the target as it is.
-/

namespace Debugger

/-! ### Types -/

/-- Whether a cell is of the type, strings being of the given one. -/
def HeapCell.HasType (string type : TypeId) : HeapCell → Prop
  | .instance found _ | .array found _ => type = found
  | .string _ => type = string

namespace Target

variable {t t' : Target}

theorem checkObject_of_object {id : ObjectId} {cell : HeapCell} (hc : t.connected = true)
    (h : t.object? id = some cell) : t.checkObject id = .ok cell := by
  simp only [checkObject, checkConnected, hc, h]
  rfl

/-- A field that is set has the value. -/
theorem field_of_value {id : ObjectId} {name : String} {type : TypeId}
    {fields : List (String × Datum)} {value : Datum} (hc : t.connected = true)
    (hcell : t.object? id = some (.instance type fields))
    (hvalue : fields.lookup name = some value) : t.field id name = .ok (some value) := by
  simp only [field, checkObject_of_object hc hcell, bind, Except.bind, hvalue]
  rfl

theorem field_connected {id : ObjectId} {name : String} {datum : Option Datum}
    (h : t.field id name = .ok datum) : t.connected = true := by
  cases hc : t.connected with
  | true => rfl
  | false =>
    simp only [field, checkObject, checkConnected, hc] at h
    contradiction

/-- Whether a type is the superclass of another one or one of its interfaces. -/
def Extends (t : Target) (type parent : TypeId) : Prop :=
  ∃ e, t.type? type = some e ∧
    ∃ name ∈ e.superclass.toList ++ e.interfaces, t.typeNamed? name = some parent

theorem superclass_extends {type parent : TypeId} (h : t.superclass type = .ok (some parent)) :
    t.Extends type parent := by
  obtain ⟨e, he, hnamed⟩ := superclass_ok h
  obtain ⟨name, hname, hparent⟩ := Option.bind_eq_some_iff.mp hnamed
  exact ⟨e, he, name, by simp [hname], hparent⟩

theorem interfaces_extends {type : TypeId} {parents : List TypeId}
    (h : t.interfaces type = .ok parents) {parent : TypeId} (hm : parent ∈ parents) :
    t.Extends type parent := by
  obtain ⟨e, he, rfl⟩ := interfaces_ok h
  obtain ⟨name, hname, hparent⟩ := List.mem_filterMap.mp hm
  exact ⟨e, he, name, List.mem_append_right _ hname, hparent⟩

theorem parents_extends {type : TypeId} {superclass : Option TypeId} {interfaces : List TypeId}
    (hs : t.superclass type = .ok superclass) (hi : t.interfaces type = .ok interfaces)
    {parent : TypeId} (hm : parent ∈ superclass.toList ++ interfaces) : t.Extends type parent := by
  cases List.mem_append.mp hm with
  | inl hm =>
    rw [Option.mem_toList.mp hm] at hs
    exact superclass_extends hs
  | inr hm => exact interfaces_extends hi hm

/-- A name of arrays is the name of no box. -/
theorem ArrayName.ofBox? {name : String} (h : ArrayName name) :
    PrimitiveKind.ofBox? name = none := by
  obtain ⟨element, rfl⟩ := h
  refine List.find?_eq_none.mpr fun k _ hk => ?_
  have hend : k.box.toList.getLast? = some ']' := by
    rw [of_decide_eq_true hk, String.toList_append, List.getLast?_append]
    rfl
  cases k <;> exact absurd hend (by decide)

/-- Only instances are of a type that is named like a box. -/
theorem Formed.cell_of_box (h : t.Formed) {string type : TypeId}
    (hs : t.typeNamed? TypeName.string = some string) {id : ObjectId} {cell : HeapCell}
    (hcell : t.object? id = some cell) (htype : cell.HasType string type) {e : TypeEntry}
    (he : t.type? type = some e) {kind : PrimitiveKind}
    (hkind : PrimitiveKind.ofBox? e.name = some kind) :
    ∃ fields, cell = .instance type fields := by
  cases cell with
  | «instance» found fields => exact ⟨fields, by rw [show type = found from htype]⟩
  | array found elements =>
    obtain rfl : type = found := htype
    obtain ⟨d, hd, harray⟩ := h.array_type hcell
    obtain rfl := Option.some.inj (he.symm.trans hd)
    rw [harray.ofBox?] at hkind
    contradiction
  | string text =>
    obtain rfl : type = string := htype
    obtain ⟨d, hd, hstring⟩ := h.type?_of_typeNamed? hs
    obtain rfl := Option.some.inj (he.symm.trans hd)
    have hnone : PrimitiveKind.ofBox? TypeName.string = none := by decide +kernel
    rw [hstring, hnone] at hkind
    contradiction

end Target

namespace Eval

/-- Asking for the type of an object changes nothing, the type of strings being there. -/
theorem objectType_ok {l l' : Link} {string : TypeId}
    (hs : l.target.typeNamed? TypeName.string = some string) {id : ObjectId} {type : TypeId}
    (h : (liftM (Remote.objectType id) : Eval TypeId) l = .ok type l') :
    l'.target = l.target ∧
      ∃ cell, l.target.object? id = some cell ∧ cell.HasType string type := by
  obtain ⟨cell, hcell, hrun⟩ := Target.objectType_ok (Link.order_ok h)
  cases cell with
  | «instance» found | array found =>
    obtain ⟨rfl, hsame⟩ := Prod.mk.inj hrun
    exact ⟨hsame, _, hcell, rfl⟩
  | string text =>
    simp only [Target.ensureType, hs] at hrun
    obtain ⟨rfl, hsame⟩ := Prod.mk.inj hrun
    exact ⟨hsame, _, hcell, rfl⟩

/-- The names that the walk finds are those of types it can reach. -/
theorem walkHierarchy_names {root : TypeId} {n : Nat} {seen : List TypeId}
    {queue : List (TypeId × Nat)} {l l' : Link} {names : List (String × Nat)}
    (hq : ∀ q ∈ queue, Relation.ReflTransGen l.target.Extends root q.1)
    (h : walkHierarchy n seen queue l = .ok names l') : l'.target = l.target ∧
      ∀ name ∈ names, ∃ type e, Relation.ReflTransGen l.target.Extends root type ∧
        l.target.type? type = some e ∧ e.name = name.1 := by
  induction n generalizing seen queue l names with
  | zero =>
    cases queue with
    | nil =>
      cases h
      exact ⟨rfl, fun _ hm => absurd hm List.not_mem_nil⟩
    | cons => contradiction
  | succ n ih =>
    cases queue with
    | nil =>
      cases h
      exact ⟨rfl, fun _ hm => absurd hm List.not_mem_nil⟩
    | cons entry queue =>
      obtain ⟨type, depth⟩ := entry
      unfold walkHierarchy at h
      split at h
      · exact ih (fun q hm => hq q (List.mem_cons_of_mem _ hm)) h
      · obtain ⟨name, l₁, hname, h⟩ := bind_ok h
        obtain ⟨parent, l₂, hparent, h⟩ := bind_ok h
        obtain ⟨interfaces, l₃, hinterfaces, h⟩ := bind_ok h
        obtain ⟨rest, l₄, hrest, h⟩ := bind_ok h
        cases h
        obtain ⟨hname, h₁⟩ := Link.ask_ok hname
        obtain ⟨hparent, h₂⟩ := Link.ask_ok hparent
        obtain ⟨hinterfaces, h₃⟩ := Link.ask_ok hinterfaces
        have hroot := hq (type, depth) List.mem_cons_self
        have hsame : l₃.target = l.target := h₃.trans (h₂.trans h₁)
        rw [h₁] at hparent
        rw [h₂, h₁] at hinterfaces
        rw [← hsame] at hq hroot ⊢
        have hqueue : ∀ q ∈ queue ++ (parent.toList ++ interfaces).map (·, depth + 1),
            Relation.ReflTransGen l₃.target.Extends root q.1 := by
          intro q hm
          cases List.mem_append.mp hm with
          | inl hm => exact hq q (List.mem_cons_of_mem _ hm)
          | inr hm =>
            obtain ⟨up, hup, rfl⟩ := List.mem_map.mp hm
            exact hroot.tail (hsame ▸ Target.parents_extends hparent hinterfaces hup)
        obtain ⟨h₄, hnames⟩ := ih hqueue hrest
        refine ⟨h₄, fun x hm => ?_⟩
        cases List.mem_cons.mp hm with
        | inl hx =>
          obtain ⟨e, he, hename⟩ := Target.typeName_ok hname
          exact ⟨type, e, hroot, hsame ▸ he, by rw [hename, hx]⟩
        | inr hx => exact hnames x hx

/-- The walk leaves the target as it is. The names are those of the type and its supertypes, that of
the type itself first. -/
theorem hierarchy_ok {type : TypeId} {l l' : Link} {names : List (String × Nat)}
    (h : hierarchy type l = .ok names l') : l'.target = l.target ∧
      (∀ name ∈ names, ∃ above e, Relation.ReflTransGen l.target.Extends type above ∧
        l.target.type? above = some e ∧ e.name = name.1) ∧
      ∃ e, l.target.type? type = some e ∧ names.head? = some (e.name, 0) := by
  change walkHierarchy (hierarchyBound l.target) [] [(type, 0)] l = .ok names l' at h
  have hroot : ∀ q ∈ [(type, 0)], Relation.ReflTransGen l.target.Extends type q.1 := by
    intro q hm
    rw [List.mem_singleton.mp hm]
  obtain ⟨hsame, hnames⟩ := walkHierarchy_names hroot h
  refine ⟨hsame, hnames, ?_⟩
  unfold hierarchyBound walkHierarchy at h
  rw [if_neg List.not_mem_nil] at h
  obtain ⟨name, l₁, hname, h⟩ := bind_ok h
  obtain ⟨parent, l₂, -, h⟩ := bind_ok h
  obtain ⟨interfaces, l₃, -, h⟩ := bind_ok h
  obtain ⟨rest, l₄, -, h⟩ := bind_ok h
  cases h
  obtain ⟨e, he, rfl⟩ := Target.typeName_ok (Link.ask_ok hname).1
  exact ⟨e, he, rfl⟩

end Eval

/-! ### Selection -/

/-- The handle denotes an array, and no supertype of the array is named like a primitive. -/
def Target.HoldsArray (t : Target) (id : ObjectId) : Prop :=
  ∃ type elements, t.object? id = some (.array type elements) ∧
    ∀ above e, Relation.ReflTransGen t.Extends type above → t.type? above = some e →
      PrimitiveKind.ofName? e.name = none

/-- Where no type is named like a primitive, neither is a supertype of an array. -/
theorem Target.HoldsArray.of_none {t : Target}
    (h : ∀ e ∈ t.types, PrimitiveKind.ofName? e.name = none) {id : ObjectId} {type : TypeId}
    {elements : List Datum} (hcell : t.object? id = some (.array type elements)) :
    t.HoldsArray id :=
  ⟨type, elements, hcell, fun _ e _ he => h e (List.mem_of_find?_eq_some he)⟩

/-- What is known of a value that converts to a parameter. -/
def Target.Converts (t : Target) (param : String) : Value → Prop
  | .null | .text .. => PrimitiveKind.ofName? param = none
  | .array id => t.HoldsArray id → PrimitiveKind.ofName? param = none
  | .object id => ∃ cell, t.object? id = some cell
  | .primitive _ => True
  | .void | .range _ | .placeholder _ => False

/-- An array takes no box's way to a primitive. -/
theorem Cost.ofHierarchy_array {types : List (String × Nat)} {param head : String} {cost : Cost}
    (h : Cost.ofHierarchy types param = some cost) (hhead : types.head? = some (head, 0))
    (harray : Target.ArrayName head)
    (hnames : ∀ name ∈ types, PrimitiveKind.ofName? name.1 = none) :
    PrimitiveKind.ofName? param = none := by
  unfold ofHierarchy at h
  cases hl : types.lookup param with
  | some depth =>
    obtain ⟨front, back, rfl, -⟩ := List.lookup_eq_some_iff.mp hl
    exact hnames (param, depth) (List.mem_append_right _ List.mem_cons_self)
  | none =>
    rw [hl] at h
    simp [hhead, harray.ofBox?] at h

namespace Eval

theorem conversionCost_ok {l l' : Link} (hf : l.target.Formed) {param : String} {v : Value}
    {cost : Option Cost} (h : conversionCost param v l = .ok cost l') :
    l'.target = l.target ∧ ∀ c, cost = some c → l.target.Converts param v := by
  obtain ⟨string, hs⟩ := hf.typeNamed?_string
  cases v with
  | null =>
    cases h
    refine ⟨rfl, fun c hc => ?_⟩
    by_contra hprim
    rw [if_pos (Option.ne_none_iff_isSome.mp hprim)] at hc
    contradiction
  | void | range | placeholder =>
    cases h
    exact ⟨rfl, nofun⟩
  | primitive p =>
    cases h
    exact ⟨rfl, fun _ _ => trivial⟩
  | text s handle =>
    cases h
    refine ⟨rfl, fun c hc => ?_⟩
    have hstring : ∀ name ∈ TypeName.string :: TypeName.stringSupertypes,
        PrimitiveKind.ofName? name = none := by decide +kernel
    refine hstring param ?_
    split at hc
    · rename_i hparam
      rw [hparam]
      exact List.mem_cons_self
    · split at hc
      · exact List.mem_cons_of_mem _ ‹_›
      · contradiction
  | object id =>
    obtain ⟨type, l₁, htype, h⟩ := bind_ok h
    obtain ⟨names, l₂, hnames, h⟩ := bind_ok h
    cases h
    obtain ⟨h₁, cell, hcell, -⟩ := objectType_ok hs htype
    exact ⟨(hierarchy_ok hnames).1.trans h₁, fun _ _ => ⟨cell, hcell⟩⟩
  | array id =>
    obtain ⟨type, l₁, htype, h⟩ := bind_ok h
    obtain ⟨names, l₂, hnames, h⟩ := bind_ok h
    cases h
    obtain ⟨h₁, cell, hcell, htype⟩ := objectType_ok hs htype
    obtain ⟨h₂, hbelow, head, hhead, hfirst⟩ := hierarchy_ok hnames
    rw [h₁] at hbelow hhead
    refine ⟨h₂.trans h₁, ?_⟩
    rintro c hc ⟨found, elements, harray, habove⟩
    obtain rfl := Option.some.inj (hcell.symm.trans harray)
    obtain rfl : type = found := htype
    obtain ⟨e, he, hname⟩ := hf.array_type harray
    obtain rfl := Option.some.inj (hhead.symm.trans he)
    refine Cost.ofHierarchy_array hc hfirst hname fun name hm => ?_
    obtain ⟨above, up, hreach, hup, hupName⟩ := hbelow name hm
    rw [← hupName]
    exact habove above up hreach hup

theorem totalCost_ok {l l' : Link} (hf : l.target.Formed) {total : Cost}
    {args : List (Value × String)} {cost : Option Cost}
    (h : totalCost total args l = .ok cost l') : l'.target = l.target ∧
      ∀ c, cost = some c → ∀ x ∈ args, l.target.Converts x.2 x.1 := by
  induction args generalizing l total with
  | nil =>
    cases h
    exact ⟨rfl, fun _ _ _ hm => absurd hm List.not_mem_nil⟩
  | cons arg args ih =>
    obtain ⟨one, l₁, hone, h⟩ := bind_ok h
    obtain ⟨h₁, hconverts⟩ := conversionCost_ok hf hone
    cases one with
    | none =>
      cases h
      exact ⟨h₁, nofun⟩
    | some one =>
      obtain ⟨h₂, hrest⟩ := ih (h₁ ▸ hf) h
      refine ⟨h₂.trans h₁, fun c hc x hm => ?_⟩
      cases hm with
      | head => exact hconverts one rfl
      | tail _ hm => exact h₁ ▸ hrest c hc x hm

theorem cheapest_ok {l l' : Link} (hf : l.target.Formed) {args : List Value}
    {best : Option (Cost × Method)} {methods : List Method} {chosen : Option Method}
    (h : cheapest args best methods l = .ok chosen l') : l'.target = l.target ∧
      ∀ m, chosen = some m → best.map (·.2) = some m ∨
        (m ∈ methods ∧ ∀ x ∈ args.zip m.params, l.target.Converts x.2 x.1) := by
  induction methods generalizing l best with
  | nil =>
    cases h
    exact ⟨rfl, fun _ hm => .inl hm⟩
  | cons candidate methods ih =>
    obtain ⟨cost, l₁, hcost, h⟩ := bind_ok h
    obtain ⟨h₁, hconverts⟩ := totalCost_ok hf hcost
    -- A method chosen among the later ones is one of all of them.
    have hlater (best' : Option (Cost × Method))
        (h : cheapest args best' methods l₁ = .ok chosen l')
        (hbest : ∀ m, best'.map (·.2) = some m → best.map (·.2) = some m ∨
          (m = candidate ∧ ∃ c, cost = some c)) : l'.target = l.target ∧
          ∀ m, chosen = some m → best.map (·.2) = some m ∨
            (m ∈ candidate :: methods ∧ ∀ x ∈ args.zip m.params, l.target.Converts x.2 x.1) := by
      obtain ⟨h₂, hchosen⟩ := ih (h₁ ▸ hf) h
      refine ⟨h₂.trans h₁, fun m hm => ?_⟩
      rcases hchosen m hm with hm | ⟨hm, hx⟩
      · rcases hbest m hm with hm | ⟨rfl, c, hc⟩
        · exact .inl hm
        · exact .inr ⟨List.mem_cons_self, hconverts c hc⟩
      · exact .inr ⟨List.mem_cons_of_mem _ hm, h₁ ▸ hx⟩
    cases cost with
    | none => exact hlater best h fun m hm => .inl hm
    | some cost =>
      dsimp only at h
      split at h
      · exact hlater _ h fun m hm => .inr ⟨(Option.some.inj hm).symm, cost, rfl⟩
      · exact hlater best h fun m hm => .inl hm

/-- The method that is taken has a parameter for each argument, and each argument converts. -/
theorem selectOverload_ok {l l' : Link} (hf : l.target.Formed) {args : List Value}
    {methods : List Method} {m : Method}
    (h : selectOverload methods args l = .ok (some m) l') : l'.target = l.target ∧ m ∈ methods ∧
      m.params.length = args.length ∧ ∀ x ∈ args.zip m.params, l.target.Converts x.2 x.1 := by
  obtain ⟨hsame, hchosen⟩ := cheapest_ok hf h
  rcases hchosen m rfl with hno | ⟨hm, hconverts⟩
  · contradiction
  · obtain ⟨hm, hlength⟩ := List.mem_filter.mp hm
    exact ⟨hsame, hm, of_decide_eq_true hlength, hconverts⟩

end Eval

end Debugger
