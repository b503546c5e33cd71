import TypeLang.Proofs.Schema.Soundness

/-!
How arguments are laid out as fields. A declaration has a layout when it has no more masks than
there are numbers for them and every condition names a mask that is declared by then
(`Field.ofDeclaration_eq_ok_iff`). A mask is numbered by the masks before it, and a gate refers to
the mask that its condition names (`Field.laidOut_of_ofDeclaration`).
-/

set_option autoImplicit false
set_option relaxedAutoImplicit false

namespace TypeLang

open Wire

/-! ### Masks among arguments -/

namespace Argument

/-- The names of the masks among some arguments. -/
def maskNames (args : List Argument) : List String :=
  (args.filter (·.type.isMask)).map Argument.name

/-- The condition of an argument, if it has one, names a mask among some arguments. -/
def ConditionNames (a : Argument) (args : List Argument) : Prop :=
  ∀ c, a.condition = some c → ∃ b ∈ args, b.type.isMask = true ∧ b.name = c.field

/-- The conditions of some arguments behind others name masks up to their own places. -/
def ConditionsName (before args : List Argument) : Prop :=
  ∀ (j : Nat) (a : Argument), args[j]? = some a → a.ConditionNames (before ++ args.take (j + 1))

/-- The gate of an argument whose condition names a mask among some arguments. -/
def gateAmong (a : Argument) (args : List Argument) : Option Gate :=
  a.condition.bind fun c =>
    ((maskNames args).findIdx? (· == c.field)).map fun slot => ⟨slot, c.bit⟩

variable {args before : List Argument} {a b : Argument}

theorem maskNames_append (args more : List Argument) :
    maskNames (args ++ more) = maskNames args ++ maskNames more := by
  unfold maskNames
  rw [List.filter_append, List.map_append]

theorem maskNames_behind_mask (h : a.type.isMask = true) :
    maskNames (before ++ [a]) = maskNames before ++ [a.name] := by
  rw [maskNames_append]
  simp [maskNames, h]

theorem maskNames_behind_plain (h : a.type.isMask = false) :
    maskNames (before ++ [a]) = maskNames before := by
  rw [maskNames_append]
  simp [maskNames, h]

theorem conditionsName_cons {rest : List Argument} :
    ConditionsName before (a :: rest) ↔
      a.ConditionNames (before ++ [a]) ∧ ConditionsName (before ++ [a]) rest := by
  have hshift : ∀ j, before ++ (a :: rest).take (j + 1) = before ++ [a] ++ rest.take j := by simp
  unfold ConditionsName
  constructor
  · intro h
    refine ⟨?_, fun j b hb ↦ ?_⟩
    · have hfirst := h 0 a rfl
      rwa [hshift, List.take_zero, List.append_nil] at hfirst
    · have hbehind := h (j + 1) b hb
      rwa [hshift] at hbehind
  · rintro ⟨hfirst, hrest⟩ j b hb
    rw [hshift]
    cases j with
    | zero =>
      cases hb
      rw [List.take_zero, List.append_nil]
      exact hfirst
    | succ j => exact hrest j b hb

/-- A mask among some arguments is numbered by the masks before it. -/
theorem exists_of_getElem?_masks {number : Nat}
    (h : (args.filter (·.type.isMask))[number]? = some b) :
    ∃ k : Nat, args[k]? = some b ∧ b.type.isMask = true ∧
      ((args.take k).filter (·.type.isMask)).length = number := by
  induction args generalizing number with
  | nil => cases h
  | cons a rest ih =>
    cases hmask : a.type.isMask with
    | false =>
      rw [List.filter_cons_of_neg (by rw [hmask]; exact Bool.false_ne_true)] at h
      obtain ⟨k, hk, hb, hnumber⟩ := ih h
      exact ⟨k + 1, hk, hb, by simpa [hmask] using hnumber⟩
    | true =>
      rw [List.filter_cons_of_pos (by exact hmask)] at h
      cases number with
      | zero =>
        cases h
        exact ⟨0, rfl, hmask, rfl⟩
      | succ number =>
        obtain ⟨k, hk, hb, hnumber⟩ := ih h
        exact ⟨k + 1, hk, hb, by simpa [hmask] using hnumber⟩

theorem mem_maskNames_iff {name : String} :
    name ∈ maskNames args ↔ ∃ b ∈ args, b.type.isMask = true ∧ b.name = name := by
  unfold maskNames
  simp [and_assoc]

/-- A condition that names a mask becomes a gate to the first mask of that name. -/
theorem gateAmong_eq_some {c : Condition} (h : a.ConditionNames args)
    (hcondition : a.condition = some c) :
    ∃ slot, a.gateAmong args = some ⟨slot, c.bit⟩ ∧ (maskNames args)[slot]? = some c.field := by
  have hmem := mem_maskNames_iff.mpr (h c hcondition)
  unfold gateAmong
  rw [hcondition, Option.bind_some]
  cases hslot : (maskNames args).findIdx? (· == c.field) with
  | none => exact absurd (List.findIdx?_eq_none_iff.mp hslot c.field hmem) (by simp)
  | some slot =>
    obtain ⟨hlt, hsame, -⟩ := List.findIdx?_eq_some_iff_getElem.mp hslot
    exact ⟨slot, rfl, by rw [List.getElem?_eq_getElem hlt, beq_iff_eq.mp hsame]⟩

/-- A gate refers to one of the masks it is among. -/
theorem slot_lt_of_gateAmong {g : Gate} (h : a.gateAmong args = some g) :
    g.slot < (maskNames args).length := by
  unfold gateAmong at h
  obtain ⟨c, -, hc⟩ := Option.bind_eq_some_iff.mp h
  obtain ⟨slot, hslot, rfl⟩ := Option.map_eq_some_iff.mp hc
  exact (List.findIdx?_eq_some_iff_getElem.mp hslot).1

end Argument

namespace Declaration

/-- How many masks there are among the first arguments. -/
def maskCount (d : Declaration) (first : Nat) : Nat :=
  ((d.arguments.take first).filter (·.type.isMask)).length

/-- A declaration whose arguments can be laid out: there are at most eight masks, and every
condition names a mask that stands before its argument or is the argument. -/
structure Resolvable (d : Declaration) : Prop where
  maskCount_le : d.maskCount d.arguments.length ≤ 8
  declared : ∀ (j : Nat) (a : Argument) (c : Condition), d.arguments[j]? = some a →
    a.condition = some c → ∃ (k : Nat) (b : Argument), k ≤ j ∧ d.arguments[k]? = some b ∧
      b.type.isMask = true ∧ b.name = c.field

end Declaration

namespace Argument

variable {d : Declaration} {a : Argument} {j : Nat}

theorem length_maskNames_take : (maskNames (d.arguments.take j)).length = d.maskCount j := by
  rw [maskNames, List.length_map, Declaration.maskCount]

theorem conditionNames_take_iff :
    a.ConditionNames (d.arguments.take (j + 1)) ↔
      ∀ c, a.condition = some c → ∃ (k : Nat) (b : Argument), k ≤ j ∧
        d.arguments[k]? = some b ∧ b.type.isMask = true ∧ b.name = c.field := by
  unfold ConditionNames
  simp only [mem_take_iff]
  refine forall_congr' fun c ↦ imp_congr_right fun _ ↦ ⟨?_, ?_⟩
  · rintro ⟨b, ⟨k, hkj, hk⟩, hb⟩
    exact ⟨k, b, Nat.le_of_lt_succ hkj, hk, hb⟩
  · rintro ⟨k, b, hkj, hk, hb⟩
    exact ⟨b, ⟨k, Nat.lt_succ_of_le hkj, hk⟩, hb⟩

end Argument

/-! ### One argument -/

namespace Field

open Argument

/-- The field of an argument of `d` behind others. -/
def ofArgument (d : Declaration) (before : List Argument) (a : Argument) : Field where
  name := a.name
  kind := Kind.ofTerm d.isGeneric a.type
  gate := a.gateAmong (before ++ [a])
  slot := if a.type.isMask then some (maskNames before).length else none

variable {d : Declaration} {before args : List Argument} {a : Argument}

theorem resolveGate_eq_ok_iff {gate : Option Gate} :
    resolveGate d a (maskNames args) = .ok gate ↔
      a.ConditionNames args ∧ gate = a.gateAmong args := by
  unfold resolveGate ConditionNames gateAmong
  cases hcondition : a.condition with
  | none =>
    refine ⟨fun h ↦ ?_, fun h ↦ by rw [h.2]; rfl⟩
    cases h
    exact ⟨nofun, rfl⟩
  | some c =>
    simp only [Option.some.injEq, forall_eq', Option.bind_some, ← mem_maskNames_iff]
    cases hslot : (maskNames args).findIdx? (· == c.field) with
    | none =>
      have hnot : c.field ∉ maskNames args := fun hmem ↦
        absurd (List.findIdx?_eq_none_iff.mp hslot c.field hmem) (by simp)
      simp [hnot]
    | some slot =>
      obtain ⟨hlt, hsame, -⟩ := List.findIdx?_eq_some_iff_getElem.mp hslot
      have hmem : c.field ∈ maskNames args := by
        rw [← beq_iff_eq.mp hsame]
        exact List.getElem_mem hlt
      simp [hmem, eq_comm]

/-- An argument gets a field unless it is one mask too many or its condition names no mask that is
declared by then. -/
theorem resolve_eq (d : Declaration) (before : List Argument) (a : Argument) :
    resolve d (maskNames before) a =
      if a.type.isMask = true ∧ (maskNames before).length = maskLimit then
        .error (.tooManyMasks d.qualifiedName maskLimit)
      else (resolveGate d a (maskNames (before ++ [a]))).map fun gate =>
        ({ ofArgument d before a with gate := gate }, maskNames (before ++ [a])) := by
  have hkind := Kind.ofTerm_eq_mask_iff d.isGeneric a.type
  unfold resolve ofArgument
  dsimp only
  cases hmask : a.type.isMask with
  | true =>
    rw [if_pos (hkind.mpr hmask), maskNames_behind_mask hmask]
    simp
  | false =>
    rw [if_neg fun hsame ↦ Bool.false_ne_true (hmask.symm.trans (hkind.mp hsame)),
      maskNames_behind_plain hmask]
    simp

/-- An argument gets a field if its condition names a mask declared by then and there is a number
left for it, should it be a mask. -/
theorem resolve_eq_ok_iff (hfree : (maskNames before).length ≤ maskLimit) {f : Field}
    {masks : List String} :
    resolve d (maskNames before) a = .ok (f, masks) ↔
      (maskNames (before ++ [a])).length ≤ maskLimit ∧ a.ConditionNames (before ++ [a]) ∧
        f = ofArgument d before a ∧ masks = maskNames (before ++ [a]) := by
  have hlimit : (maskNames (before ++ [a])).length ≤ maskLimit ↔
      ¬ (a.type.isMask = true ∧ (maskNames before).length = maskLimit) := by
    cases hmask : a.type.isMask with
    | true =>
      rw [maskNames_behind_mask hmask, List.length_append, List.length_singleton, eq_self, true_and]
      omega
    | false =>
      rw [maskNames_behind_plain hmask]
      simpa using hfree
  rw [resolve_eq, hlimit]
  by_cases hfull : a.type.isMask = true ∧ (maskNames before).length = maskLimit
  · rw [if_pos hfull]
    simp [hfull]
  · rw [if_neg hfull, map_ok_iff]
    simp only [resolveGate_eq_ok_iff, Prod.mk.injEq]
    constructor
    · rintro ⟨gate, ⟨hnames, rfl⟩, rfl, rfl⟩
      exact ⟨hfull, hnames, rfl, rfl⟩
    · rintro ⟨-, hnames, rfl, rfl⟩
      exact ⟨_, ⟨hnames, rfl⟩, rfl, rfl⟩

/-! ### All arguments -/

/-- The fields of some arguments of `d` behind others. -/
def ofArguments (d : Declaration) (before : List Argument) : List Argument → List Field
  | [] => []
  | a :: rest => ofArgument d before a :: ofArguments d (before ++ [a]) rest

theorem getElem?_ofArguments (d : Declaration) (before args : List Argument) (j : Nat) :
    (ofArguments d before args)[j]? =
      args[j]?.map (ofArgument d (before ++ args.take j)) := by
  induction args generalizing before j with
  | nil => rfl
  | cons a rest ih =>
    cases j with
    | zero => simp [ofArguments]
    | succ j =>
      have hbefore : before ++ [a] ++ rest.take j = before ++ (a :: rest).take (j + 1) := by simp
      rw [ofArguments, List.getElem?_cons_succ, ih, hbefore, List.getElem?_cons_succ]

theorem length_ofArguments (d : Declaration) (before args : List Argument) :
    (ofArguments d before args).length = args.length := by
  induction args generalizing before with
  | nil => rfl
  | cons a rest ih => rw [ofArguments, List.length_cons, ih, List.length_cons]

/-- Arguments get fields, and these, if each of them does behind those before it. -/
theorem resolveAll_eq_ok_iff (hfree : (maskNames before).length ≤ maskLimit)
    {fields : List Field} :
    resolveAll d (maskNames before) args = .ok fields ↔
      (maskNames (before ++ args)).length ≤ maskLimit ∧ ConditionsName before args ∧
        fields = ofArguments d before args := by
  induction args generalizing before fields with
  | nil => simp [resolveAll, ofArguments, ConditionsName, hfree, eq_comm]
  | cons a rest ih =>
    have hall : before ++ a :: rest = before ++ [a] ++ rest := by simp
    -- The masks up to an argument are among those up to the last one.
    have hgrow : (maskNames (before ++ [a])).length ≤ (maskNames (before ++ a :: rest)).length := by
      rw [hall, maskNames_append (before ++ [a]), List.length_append]
      exact Nat.le_add_right _ _
    rw [resolveAll, conditionsName_cons]
    constructor
    · intro h
      cases hfield : resolve d (maskNames before) a with
      | error fault => rw [hfield] at h; cases h
      | ok found =>
        obtain ⟨f, masks⟩ := found
        obtain ⟨hbound, hhere, rfl, rfl⟩ := (resolve_eq_ok_iff hfree).mp hfield
        rw [hfield] at h
        obtain ⟨behind, hbehind, rfl⟩ := map_ok_iff.mp h
        obtain ⟨hlimit, hrest, rfl⟩ := (ih hbound).mp hbehind
        exact ⟨by rwa [hall], ⟨hhere, hrest⟩, rfl⟩
    · rintro ⟨hlimit, ⟨hhere, hrest⟩, rfl⟩
      have hbound := Nat.le_trans hgrow hlimit
      have hfield := (resolve_eq_ok_iff (d := d) hfree).mpr ⟨hbound, hhere, rfl, rfl⟩
      rw [hfield]
      exact map_ok_iff.mpr ⟨_, (ih hbound).mpr ⟨by rwa [← hall], hrest, rfl⟩, rfl⟩

/-- A declaration has fields just when its arguments can be laid out. -/
theorem ofDeclaration_eq_ok_iff {fields : List Field} :
    ofDeclaration d = .ok fields ↔ d.Resolvable ∧ fields = ofArguments d [] d.arguments := by
  have hfree : (maskNames []).length ≤ maskLimit := Nat.zero_le _
  have hall : resolveAll d (maskNames []) d.arguments = .ok fields ↔ _ := resolveAll_eq_ok_iff hfree
  have hcount : (maskNames d.arguments).length = d.maskCount d.arguments.length := by
    rw [← length_maskNames_take, List.take_length]
  simp only [ConditionsName, List.nil_append, conditionNames_take_iff, hcount] at hall
  refine hall.trans ⟨?_, ?_⟩
  · rintro ⟨hlimit, hnames, rfl⟩
    exact ⟨⟨hlimit, fun j a c ha hc ↦ hnames j a ha c hc⟩, rfl⟩
  · rintro ⟨⟨hlimit, hnames⟩, rfl⟩
    exact ⟨hlimit, fun j a ha c hc ↦ hnames j a c ha hc, rfl⟩

end Field

/-! ### What a layout says -/

/-- The fields of a combinator are those of its arguments: a mask is numbered by the masks before
it, and a gate has the bit of its condition and the number of the mask that the condition names. -/
structure Combinator.LaidOut (c : Combinator) : Prop where
  length_eq : c.fields.length = c.declaration.arguments.length
  kind_eq_mask_iff : ∀ (j : Nat) (a : Argument) (f : Field), c.declaration.arguments[j]? = some a →
    c.fields[j]? = some f → (f.kind = .mask ↔ a.type.isMask = true)
  slot_eq : ∀ (j : Nat) (a : Argument) (f : Field), c.declaration.arguments[j]? = some a →
    c.fields[j]? = some f →
      f.slot = if a.type.isMask then some (c.declaration.maskCount j) else none
  gate_isSome : ∀ (j : Nat) (a : Argument) (f : Field), c.declaration.arguments[j]? = some a →
    c.fields[j]? = some f → f.gate.isSome = a.condition.isSome
  gate_eq : ∀ (j : Nat) (a : Argument) (f : Field) (condition : Condition) (g : Gate),
    c.declaration.arguments[j]? = some a → c.fields[j]? = some f →
      a.condition = some condition → f.gate = some g → g.bit = condition.bit ∧
        ∃ (k : Nat) (b : Argument), k ≤ j ∧ c.declaration.arguments[k]? = some b ∧
          b.type.isMask = true ∧ b.name = condition.field ∧ g.slot = c.declaration.maskCount k
  gate_slot_lt : ∀ (j : Nat) (a : Argument) (f : Field) (g : Gate),
    c.declaration.arguments[j]? = some a → c.fields[j]? = some f → f.gate = some g →
      g.slot < c.declaration.maskCount (j + 1)

namespace Field

open Argument

theorem gate_ofArgument {before : List Argument} {d : Declaration} {a : Argument} :
    (ofArgument d before a).gate = a.gateAmong (before ++ [a]) := rfl

/-- The condition of an argument that can be laid out becomes a gate to a mask of that name. -/
theorem gateAmong_of_resolvable {d : Declaration} (h : d.Resolvable) {j : Nat} {a : Argument}
    {c : Condition} (ha : d.arguments[j]? = some a) (hc : a.condition = some c) :
    ∃ (k : Nat) (b : Argument), k ≤ j ∧ d.arguments[k]? = some b ∧ b.type.isMask = true ∧
      b.name = c.field ∧ a.gateAmong (d.arguments.take (j + 1)) = some ⟨d.maskCount k, c.bit⟩ := by
  have hnames := conditionNames_take_iff.mpr (h.declared j a · ha ·)
  obtain ⟨slot, hslot, hname⟩ := gateAmong_eq_some hnames hc
  unfold maskNames at hname
  rw [List.getElem?_map, Option.map_eq_some_iff] at hname
  obtain ⟨b, hb, hbname⟩ := hname
  obtain ⟨k, hk, hmask, hnumber⟩ := exists_of_getElem?_masks hb
  obtain ⟨hkj, hk⟩ := getElem?_take_eq_some_iff.mp hk
  rw [List.take_take, Nat.min_eq_left (Nat.le_of_lt hkj)] at hnumber
  refine ⟨k, b, Nat.le_of_lt_succ hkj, hk, hmask, hbname, ?_⟩
  rw [hslot, ← hnumber]
  rfl

/-- The fields of a declaration are laid out. -/
theorem laidOut_of_ofDeclaration {c : Combinator}
    (h : ofDeclaration c.declaration = .ok c.fields) : c.LaidOut := by
  obtain ⟨hresolvable, hfields⟩ := ofDeclaration_eq_ok_iff.mp h
  have hfield : ∀ {j : Nat} {a : Argument} {f : Field}, c.declaration.arguments[j]? = some a →
      c.fields[j]? = some f →
        f = ofArgument c.declaration (c.declaration.arguments.take j) a := by
    intro j a f ha hf
    rw [hfields, getElem?_ofArguments, ha, List.nil_append] at hf
    exact (Option.some.inj hf).symm
  have hgate : ∀ {j : Nat} {a : Argument} {f : Field}, c.declaration.arguments[j]? = some a →
      c.fields[j]? = some f → f.gate = a.gateAmong (c.declaration.arguments.take (j + 1)) := by
    intro j a f ha hf
    rw [hfield ha hf, gate_ofArgument, List.take_add_one, ha, Option.toList_some]
  exact
    { length_eq := by
        rw [hfields, length_ofArguments]
      kind_eq_mask_iff := fun j a f ha hf ↦ by
        rw [hfield ha hf]
        exact Kind.ofTerm_eq_mask_iff _ _
      slot_eq := fun j a f ha hf ↦ by
        rw [hfield ha hf, ← length_maskNames_take]
        rfl
      gate_isSome := fun j a f ha hf ↦ by
        rw [hgate ha hf]
        cases hcondition : a.condition with
        | none =>
          unfold gateAmong
          rw [hcondition]
          rfl
        | some condition =>
          obtain ⟨_, _, -, -, -, -, hsome⟩ := gateAmong_of_resolvable hresolvable ha hcondition
          rw [hsome]
          rfl
      gate_eq := fun j a f condition g ha hf hcondition hg ↦ by
        obtain ⟨k, b, hkj, hk, hmask, hname, hsome⟩ :=
          gateAmong_of_resolvable hresolvable ha hcondition
        rw [hgate ha hf, hsome] at hg
        cases hg
        exact ⟨rfl, k, b, hkj, hk, hmask, hname, rfl⟩
      gate_slot_lt := fun j a f g ha hf hg ↦ by
        rw [hgate ha hf] at hg
        rw [← length_maskNames_take]
        exact slot_lt_of_gateAmong hg }

end Field

end TypeLang
