import TypeLang.Message.Masks
import TypeLang.Proofs.Schema.Soundness

/-!
The masks of objects. `impliedMasks` says what every mask of an object with given entries is, and
`Agrees` what a value has to do with the bit of its field; together they say when the masks of an
object can be found and what they are (`resolveMasks_eq_ok_iff`).
-/

set_option autoImplicit false
set_option relaxedAutoImplicit false

namespace TypeLang

open Wire

/-! ### Masks that agree -/

namespace Masks

/-- Masks are the same up to the one of a given number. -/
def AgreeBelow (n : Nat) (masks other : Masks) : Prop := ∀ slot, slot < n → masks slot = other slot

variable {masks other : Masks} {n : Nat} {f : Field}

@[simp] theorem set_self (masks : Masks) (slot : Nat) (bits : UInt32) :
    masks.set slot bits slot = bits := if_pos rfl

theorem set_of_ne {slot : Nat} {bits : UInt32} (h : n ≠ slot) : masks.set slot bits n = masks n :=
  if_neg h

theorem AgreeBelow.set (h : AgreeBelow n masks other) (bits : UInt32) :
    AgreeBelow n (masks.set n bits) other := by
  intro slot hslot
  rw [set_of_ne (Nat.ne_of_lt hslot)]
  exact h slot hslot

theorem AgreeBelow.set_succ (h : AgreeBelow n masks other) :
    AgreeBelow (n + 1) (masks.set n (other n)) other := by
  intro slot hslot
  by_cases hsame : slot = n
  · rw [hsame, set_self]
  · exact h.set (other n) slot (by omega)

/-- Masks that agree below the gate of a field say the same about the field. -/
theorem AgreeBelow.opens_eq (h : AgreeBelow n masks other)
    (hgate : ∀ g, f.gate = some g → g.slot < n) : masks.opens f = other.opens f := by
  unfold opens
  cases hg : f.gate with
  | none => rfl
  | some g =>
    show masks.isSet g = other.isSet g
    unfold isSet
    rw [h g.slot (hgate g hg)]

end Masks

namespace Field.Numbered

variable {n : Nat} {fields : List Field}

theorem gate_lt (h : Numbered n fields) (hn : n ≤ maskLimit) :
    ∀ f ∈ fields, ∀ g, f.gate = some g → g.slot < maskLimit := by
  induction h with
  | nil => exact nofun
  | mask hlimit _ ih =>
    intro f hf g hg
    rcases List.mem_cons.mp hf with rfl | hf
    · cases hg
    · exact ih hlimit f hf g hg
  | plain _ _ hgate _ ih =>
    intro f hf g hg
    rcases List.mem_cons.mp hf with rfl | hf
    · exact Nat.lt_of_lt_of_le (hgate g hg).1 hn
    · exact ih hn f hf g hg

theorem slot_bounds (h : Numbered n fields) :
    ∀ f ∈ fields, ∀ slot, f.slot = some slot → n ≤ slot ∧ slot < maskLimit := by
  induction h with
  | nil => exact nofun
  | mask hlimit _ ih =>
    intro f hf slot hslot
    rcases List.mem_cons.mp hf with rfl | hf
    · cases hslot
      exact ⟨Nat.le_refl _, hlimit⟩
    · obtain ⟨hle, hlt⟩ := ih f hf slot hslot
      exact ⟨by omega, hlt⟩
  | plain hnone _ _ _ ih =>
    intro f hf slot hslot
    rcases List.mem_cons.mp hf with rfl | hf
    · rw [hnone] at hslot
      cases hslot
    · exact ih f hf slot hslot

/-- The mask of a number is the only one. -/
theorem find?_eq (h : Numbered n fields) {f : Field} (hf : f ∈ fields) {slot : Nat}
    (hslot : f.slot = some slot) : fields.find? (·.slot == some slot) = some f := by
  induction h with
  | nil => cases hf
  | @mask n name rest _ hrest ih =>
    rcases List.mem_cons.mp hf with rfl | hf
    · cases hslot
      simp
    · have hle := (hrest.slot_bounds f hf slot hslot).1
      have hne : ¬ n = slot := by omega
      simp [hne, ih hf]
  | plain hnone _ _ _ ih =>
    rcases List.mem_cons.mp hf with rfl | hf
    · rw [hnone] at hslot
      cases hslot
    · simp [hnone, ih hf]

theorem find?_eq_none (h : Numbered n fields) {slot : Nat}
    (hslot : slot < n ∨ maskLimit ≤ slot) : fields.find? (·.slot == some slot) = none := by
  rw [List.find?_eq_none]
  intro f hf hsame
  obtain ⟨hle, hlt⟩ := h.slot_bounds f hf slot (by simpa using hsame)
  omega

/-- Behind some fields all masks are declared that the fields among them and the next ones can refer
to. -/
theorem split {before rest : List Field} (h : Numbered n (before ++ rest)) :
    ∃ m, n ≤ m ∧ Numbered m rest ∧
      (∀ slot, n ≤ slot → slot < m → ∃ f ∈ before, f.slot = some slot) ∧
      ∀ f ∈ before, (∀ slot, f.slot = some slot → slot < m) ∧
        ∀ g, f.gate = some g → g.slot < m := by
  induction before generalizing n with
  | nil => exact ⟨n, Nat.le_refl n, h, fun slot hle hlt ↦ by omega, nofun⟩
  | cons f before ih =>
    cases h with
    | mask _ hrest =>
      obtain ⟨m, hle, hm, hdeclared, hbound⟩ := ih hrest
      refine ⟨m, Nat.le_of_succ_le hle, hm, fun slot hslot hlt ↦ ?_, ?_⟩
      · by_cases hsame : slot = n
        · exact ⟨_, List.mem_cons_self, by rw [hsame]⟩
        · obtain ⟨e, he, heslot⟩ := hdeclared slot (by omega) hlt
          exact ⟨e, List.mem_cons_of_mem _ he, heslot⟩
      · refine List.forall_mem_cons.mpr ⟨⟨fun slot hslot ↦ ?_, nofun⟩, hbound⟩
        cases hslot
        exact hle
    | plain hslot _ hgate hrest =>
      obtain ⟨m, hle, hm, hdeclared, hbound⟩ := ih hrest
      refine ⟨m, hle, hm, fun slot hn hlt ↦ ?_, ?_⟩
      · obtain ⟨e, he, heslot⟩ := hdeclared slot hn hlt
        exact ⟨e, List.mem_cons_of_mem _ he, heslot⟩
      · refine List.forall_mem_cons.mpr ⟨⟨fun slot hsome ↦ ?_, fun g hg ↦ ?_⟩, hbound⟩
        · rw [hslot] at hsome
          cases hsome
        · exact Nat.lt_of_lt_of_le (hgate g hg).1 hle

/-- The mask that the gate of a field refers to stands before the field. -/
theorem exists_mask (h : Numbered 0 fields) {i : Nat} {f : Field} {g : Gate}
    (hf : fields[i]? = some f) (hg : f.gate = some g) :
    ∃ (j : Nat) (mask : Field), j < i ∧ fields[j]? = some mask ∧ mask.slot = some g.slot := by
  obtain ⟨hlt, hget⟩ := List.getElem?_eq_some_iff.mp hf
  rw [← List.take_append_drop i fields] at h
  obtain ⟨m, -, hbehind, hdeclared, -⟩ := h.split
  rw [List.drop_eq_getElem_cons hlt, hget] at hbehind
  cases hbehind with
  | mask _ _ => cases hg
  | plain _ _ hgate _ =>
    obtain ⟨mask, hmask, hnumber⟩ := hdeclared g.slot (Nat.zero_le _) (hgate g hg).1
    obtain ⟨j, hji, hj⟩ := mem_take_iff.mp hmask
    exact ⟨j, mask, hji, hj, hnumber⟩

/-- A field that may be left out, because it is a presence field or its bit is clear, is no mask. -/
theorem slot_eq_none (h : Numbered n fields) {f : Field} (hf : f ∈ fields) {masks : Masks}
    (homit : (f.isPresence || !masks.opens f) = true) : f.slot = none := by
  induction h with
  | nil => cases hf
  | mask _ _ ih =>
    rcases List.mem_cons.mp hf with rfl | hf
    · rw [Masks.opens_of_gate_eq_none rfl] at homit
      cases homit
    · exact ih hf
  | plain hslot _ _ _ ih =>
    rcases List.mem_cons.mp hf with rfl | hf
    · exact hslot
    · exact ih hf

theorem kind_eq_mask (h : Numbered n fields) {f : Field} (hf : f ∈ fields) {slot : Nat}
    (hslot : f.slot = some slot) : f.kind = .mask := by
  induction h with
  | nil => cases hf
  | mask _ _ ih =>
    rcases List.mem_cons.mp hf with rfl | hf
    · rfl
    · exact ih hf
  | plain hnone _ _ _ ih =>
    rcases List.mem_cons.mp hf with rfl | hf
    · rw [hnone] at hslot
      cases hslot
    · exact ih hf

end Field.Numbered

namespace Message

/-! ### Supplied and derived masks -/

/-- A mask and the bit that a field sets in it, if it does. -/
def addBit (entries : Entries) (slot : Nat) (bits : UInt32) (f : Field) : UInt32 :=
  match f.gate with
  | some g =>
    if g.slot = slot ∧ isSupplied f (entries.find? f.name) then bits ||| bitMask g.bit else bits
  | none => bits

/-- The bits of a mask whose fields are supplied. -/
def suppliedBits (entries : Entries) (slot : Nat) (fields : List Field) : UInt32 :=
  fields.foldl (addBit entries slot) 0

/-- The masks that entries give to an object with some fields. A mask is the one supplied, or else
has the bits of the fields that are supplied. -/
def impliedMasks (fields : List Field) (entries : Entries) : Masks := fun slot =>
  match (fields.find? (·.slot == some slot)).bind fun f => entries.find? f.name with
  | some v => v.toMask?.getD 0
  | none => suppliedBits entries slot fields

/-- What is supplied for a mask is a mask. -/
def MasksFit (fields : List Field) (entries : Entries) : Prop :=
  ∀ f ∈ fields, ∀ slot, f.slot = some slot → ∀ v, entries.find? f.name = some v →
    ∃ bits, v.toMask? = some bits

variable {fields : List Field} {entries : Entries} {n : Nat}

theorem impliedMasks_of_supplied (hn : Field.Numbered n fields) {f : Field} (hf : f ∈ fields)
    {slot : Nat} (hslot : f.slot = some slot) {v : Value} (hv : entries.find? f.name = some v)
    {bits : UInt32} (hbits : v.toMask? = some bits) : impliedMasks fields entries slot = bits := by
  unfold impliedMasks
  rw [hn.find?_eq hf hslot]
  simp only [Option.bind_some, hv, hbits, Option.getD_some]

theorem suppliedMasks_isOk_iff :
    (∃ supplied, suppliedMasks entries fields = .ok supplied) ↔ MasksFit fields entries := by
  unfold MasksFit
  induction fields with
  | nil => exact ⟨fun _ ↦ nofun, fun _ ↦ ⟨[], rfl⟩⟩
  | cons f rest ih =>
    rw [List.forall_mem_cons, ← ih, suppliedMasks]
    cases hslot : f.slot with
    | none => simp
    | some slot =>
      cases hv : entries.find? f.name with
      | none => simp
      | some v =>
        cases hbits : v.toMask? with
        | none => simp [hbits]
        | some bits => cases suppliedMasks entries rest <;> simp [hbits, Except.map]

theorem suppliedMasks_lookup (hn : Field.Numbered n fields) {supplied : List (Nat × UInt32)}
    (h : suppliedMasks entries fields = .ok supplied) (slot : Nat) :
    supplied.lookup slot =
      ((fields.find? (·.slot == some slot)).bind fun f => entries.find? f.name).bind
        Value.toMask? := by
  induction hn generalizing supplied with
  | nil => cases h; rfl
  | @mask n name rest hlimit hrest ih =>
    rw [suppliedMasks] at h
    dsimp only at h
    cases hv : entries.find? name with
    | none =>
      rw [hv] at h
      rw [ih h]
      by_cases hsame : n = slot
      · subst hsame
        rw [hrest.find?_eq_none (.inl (Nat.lt_succ_self n))]
        simp [hv]
      · simp [hsame]
    | some v =>
      rw [hv] at h
      dsimp only at h
      cases hbits : v.toMask? with
      | none => rw [hbits] at h; cases h
      | some bits =>
        rw [hbits] at h
        obtain ⟨behind, hbehind, rfl⟩ := map_ok_iff.mp h
        by_cases hsame : n = slot
        · subst hsame
          simp [hv, hbits]
        · have hne : (slot == n) = false := by simp; omega
          simp [List.lookup_cons, hne, hsame, ih hbehind]
  | plain hnone _ _ _ ih =>
    rw [suppliedMasks, hnone] at h
    simp [hnone, ih h]

/-- A mask is derived if the gates of its fields can be asked. -/
theorem derivedMask_eq (h : ∀ f ∈ fields, f.Testable) (slot : Nat) :
    derivedMask entries slot fields = .ok (suppliedBits entries slot fields) := by
  unfold derivedMask suppliedBits
  generalize (0 : UInt32) = bits
  induction fields generalizing bits with
  | nil => rfl
  | cons f rest ih =>
    obtain ⟨hhere, hrest⟩ := List.forall_mem_cons.mp h
    rw [List.foldlM_cons, List.foldl_cons, ← ih hrest]
    unfold addBit
    cases hg : f.gate with
    | none => rfl
    | some g =>
      dsimp only
      split
      · rw [Masks.gateWord_eq (hhere g hg)]
        rfl
      · rfl

theorem suppliedBits_eq_zero {slot : Nat}
    (h : ∀ f ∈ fields, ∀ g, f.gate = some g → g.slot ≠ slot) :
    suppliedBits entries slot fields = 0 := by
  unfold suppliedBits
  refine List.foldlRecOn fields _ (motive := (· = 0)) rfl fun bits hbits f hf ↦ ?_
  unfold addBit
  cases hg : f.gate with
  | none => exact hbits
  | some g =>
    dsimp only
    rw [if_neg fun hboth ↦ h f hf g hg hboth.1]
    exact hbits

/-- All masks are found if the gates can be asked. -/
theorem completeMasks_eq_ok (h : ∀ f ∈ fields, f.Testable) (supplied : List (Nat × UInt32)) :
    completeMasks entries fields supplied = .ok fun slot =>
      ((List.range Field.maskLimit).map fun slot =>
        (supplied.lookup slot).getD (suppliedBits entries slot fields))[slot]?.getD 0 := by
  have hmask : completeMask entries fields supplied =
      fun slot => pure ((supplied.lookup slot).getD (suppliedBits entries slot fields)) := by
    funext slot
    unfold completeMask
    cases supplied.lookup slot with
    | none => exact derivedMask_eq h slot
    | some bits => rfl
  unfold completeMasks
  rw [hmask, List.mapM_pure]
  rfl

theorem completeMasks_eq (hn : Field.Numbered 0 fields) {supplied : List (Nat × UInt32)}
    (h : suppliedMasks entries fields = .ok supplied) :
    completeMasks entries fields supplied = .ok (impliedMasks fields entries) := by
  rw [completeMasks_eq_ok hn.testable]
  congr 1
  funext slot
  have hfit := suppliedMasks_isOk_iff.mp ⟨supplied, h⟩
  have hlookup := suppliedMasks_lookup hn h slot
  unfold impliedMasks
  by_cases hslot : slot < Field.maskLimit
  · simp only [List.getElem?_map, List.getElem?_range hslot, Option.map_some, Option.getD_some,
      hlookup]
    cases hfind : fields.find? (·.slot == some slot) with
    | none => rfl
    | some f =>
      have hmem := List.mem_of_find?_eq_some hfind
      have hfslot : f.slot = some slot := by simpa using List.find?_some hfind
      simp only [Option.bind_some]
      cases hv : entries.find? f.name with
      | none => rfl
      | some v =>
        obtain ⟨bits, hbits⟩ := hfit f hmem slot hfslot v hv
        simp only [Option.bind_some, hbits, Option.getD_some]
  · have hslot := Nat.not_lt.mp hslot
    have hnone : ((List.range Field.maskLimit).map fun slot =>
        (supplied.lookup slot).getD (suppliedBits entries slot fields))[slot]? = none := by
      rw [List.getElem?_eq_none_iff, List.length_map, List.length_range]
      exact hslot
    rw [hnone, hn.find?_eq_none (.inr hslot)]
    refine (suppliedBits_eq_zero fun f hf g hg ↦ ?_).symm
    have := hn.gate_lt (Nat.zero_le _) f hf g hg
    omega

/-! ### Values and their bits -/

/-- A value agrees with the bit of its field: a presence field that is supplied has the value of
the bit, and any other field is supplied just when the bit is set. -/
def Agrees (masks : Masks) (f : Field) (value : Option Value) : Prop :=
  ∀ g, f.gate = some g →
    if f.isPresence then ∀ b, value = some (.bool b) → b = masks.isSet g
    else isSupplied f value = masks.isSet g

theorem checkGate_eq_ok_iff {bits : UInt32} {bit : UInt8} {supplied : Bool} {field : String} :
    checkGate bits bit supplied field = .ok () ↔ supplied = hasBit bits bit := by
  unfold checkGate
  cases hasBit bits bit <;> cases supplied <;> simp

theorem checkField_eq_ok_iff {masks : Masks} {f : Field} {value : Option Value}
    (htestable : f.Testable) :
    checkField masks f value = .ok () ↔ Agrees masks f value := by
  unfold checkField Agrees
  cases hg : f.gate with
  | none => simp
  | some g =>
    simp only [Option.some.injEq, forall_eq', Masks.test_eq (htestable g hg)]
    by_cases hpresence : f.isPresence = true
    · simp only [if_pos hpresence]
      split
      · rename_i b
        by_cases hsame : b = masks.isSet g
        · simp [hsame]
        · simp [hsame]
      · rename_i hother
        refine ⟨fun _ b hb ↦ absurd hb (hother b), fun _ ↦ rfl⟩
    · simp only [if_neg hpresence]
      rw [mapError_ok_iff, checkGate_eq_ok_iff]
      rfl

theorem checkFields_eq_ok_iff {masks : Masks} (htestable : ∀ f ∈ fields, f.Testable) :
    checkFields masks entries fields = .ok () ↔
      ∀ f ∈ fields, Agrees masks f (entries.find? f.name) := by
  induction fields with
  | nil => exact ⟨fun _ ↦ nofun, fun _ ↦ rfl⟩
  | cons f rest ih =>
    obtain ⟨hhere, hrest⟩ := List.forall_mem_cons.mp htestable
    rw [List.forall_mem_cons, ← ih hrest, ← checkField_eq_ok_iff hhere, checkFields]
    cases checkField masks f (entries.find? f.name) <;> simp

/-- The masks of an object are found if those supplied are masks and every value agrees with its
bit. Then they are the implied ones. -/
theorem resolveMasks_eq_ok_iff (hn : Field.Numbered 0 fields) {masks : Masks} :
    resolveMasks fields entries = .ok masks ↔
      masks = impliedMasks fields entries ∧ MasksFit fields entries ∧
        ∀ f ∈ fields, Agrees masks f (entries.find? f.name) := by
  unfold resolveMasks
  constructor
  · intro h
    cases hsupplied : suppliedMasks entries fields with
    | error fault => rw [hsupplied] at h; cases h
    | ok supplied =>
      simp only [hsupplied, completeMasks_eq hn hsupplied] at h
      obtain ⟨_, hcheck, rfl⟩ := map_ok_iff.mp h
      exact ⟨rfl, suppliedMasks_isOk_iff.mp ⟨supplied, hsupplied⟩,
        (checkFields_eq_ok_iff hn.testable).mp hcheck⟩
  · rintro ⟨rfl, hfit, hagree⟩
    obtain ⟨supplied, hsupplied⟩ := suppliedMasks_isOk_iff.mpr hfit
    simp only [hsupplied, completeMasks_eq hn hsupplied,
      (checkFields_eq_ok_iff hn.testable).mpr hagree]
    rfl

/-- A value that does not agree with its bit is a fault of what is supplied. -/
theorem invalidState_of_checkField {masks : Masks} {f : Field} {value : Option Value}
    (htestable : f.Testable) {e : Error} (h : checkField masks f value = .error e) :
    ∃ fault, e = .invalidState fault := by
  unfold checkField at h
  cases hg : f.gate with
  | none => rw [hg] at h; cases h
  | some g =>
    simp only [hg, Masks.test_eq (htestable g hg)] at h
    split at h
    · split at h
      · split at h <;> cases h
        exact ⟨_, rfl⟩
      · cases h
    · cases hcheck : checkGate (masks g.slot) g.bit (isSupplied f value) f.name with
      | ok u => rw [hcheck] at h; cases h
      | error fault => rw [hcheck] at h; cases h; exact ⟨fault, rfl⟩

theorem invalidState_of_checkFields {masks : Masks} (htestable : ∀ f ∈ fields, f.Testable)
    {e : Error} (h : checkFields masks entries fields = .error e) :
    ∃ fault, e = .invalidState fault := by
  induction fields with
  | nil => cases h
  | cons f rest ih =>
    obtain ⟨hhere, hrest⟩ := List.forall_mem_cons.mp htestable
    rw [checkFields] at h
    cases hcheck : checkField masks f (entries.find? f.name) with
    | ok u => rw [hcheck] at h; exact ih hrest h
    | error e => rw [hcheck] at h; cases h; exact invalidState_of_checkField hhere hcheck

/-- Masks that are not found are a fault of what is supplied. -/
theorem invalidState_of_resolveMasks (hn : Field.Numbered 0 fields) {e : Error}
    (h : resolveMasks fields entries = .error e) : ∃ fault, e = .invalidState fault := by
  unfold resolveMasks at h
  cases hsupplied : suppliedMasks entries fields with
  | error fault => rw [hsupplied] at h; cases h; exact ⟨fault, rfl⟩
  | ok supplied =>
    simp only [hsupplied, completeMasks_eq hn hsupplied] at h
    cases hcheck : checkFields (impliedMasks fields entries) entries fields with
    | ok u => rw [hcheck] at h; cases h
    | error e => rw [hcheck] at h; cases h; exact invalidState_of_checkFields hn.testable hcheck

/-! ### Fields that are settled -/

/-- Nothing that concerns a field differs between masks and entries and others. -/
structure SeesSame (f : Field) (masks other : Masks) (entries others : Entries) : Prop where
  slot_eq : ∀ slot, f.slot = some slot → masks slot = other slot
  gate_eq : ∀ g, f.gate = some g → masks g.slot = other g.slot
  entry_eq : entries.find? f.name = others.find? f.name

/-- Some fields have all their masks supplied, and their values agree with these. -/
structure Settled (masks : Masks) (entries : Entries) (fields : List Field) : Prop where
  supplied : ∀ f ∈ fields, ∀ slot, f.slot = some slot →
    ∃ v, entries.find? f.name = some v ∧ v.toMask? = some (masks slot)
  agrees : ∀ f ∈ fields, Agrees masks f (entries.find? f.name)

variable {masks other : Masks} {others : Entries} {f : Field}

theorem SeesSame.isSet_eq (h : SeesSame f masks other entries others) {g : Gate}
    (hg : f.gate = some g) : masks.isSet g = other.isSet g := by
  unfold Masks.isSet
  rw [h.gate_eq g hg]

theorem SeesSame.opens_eq (h : SeesSame f masks other entries others) :
    masks.opens f = other.opens f := by
  unfold Masks.opens
  cases hg : f.gate with
  | none => rfl
  | some g => exact h.isSet_eq hg

theorem SeesSame.agrees (h : SeesSame f masks other entries others)
    (hagrees : Agrees masks f (entries.find? f.name)) :
    Agrees other f (others.find? f.name) := by
  intro g hg
  rw [← h.entry_eq, ← h.isSet_eq hg]
  exact hagrees g hg

namespace Settled

theorem nil : Settled masks entries [] := ⟨nofun, nofun⟩

theorem append {behind : List Field} (h : Settled masks entries fields)
    (h' : Settled masks entries behind) : Settled masks entries (fields ++ behind) :=
  ⟨List.forall_mem_append.mpr ⟨h.supplied, h'.supplied⟩,
    List.forall_mem_append.mpr ⟨h.agrees, h'.agrees⟩⟩

theorem congr (h : Settled masks entries fields)
    (hsame : ∀ f ∈ fields, SeesSame f masks other entries others) :
    Settled other others fields := by
  refine ⟨fun f hf slot hslot ↦ ?_, fun f hf ↦ (hsame f hf).agrees (h.agrees f hf)⟩
  rw [← (hsame f hf).entry_eq, ← (hsame f hf).slot_eq slot hslot]
  exact h.supplied f hf slot hslot

/-- Fields that are left out are settled. -/
theorem of_omitted (hslot : ∀ f ∈ fields, f.slot = none)
    (homit : ∀ f ∈ fields, (f.isPresence || !masks.opens f) = true)
    (hnone : ∀ f ∈ fields, entries.find? f.name = none) : Settled masks entries fields := by
  constructor
  · intro f hf slot hsome
    rw [hslot f hf] at hsome
    cases hsome
  · intro f hf g hg
    rw [hnone f hf]
    by_cases hpresence : f.isPresence = true
    · rw [if_pos hpresence]
      exact nofun
    · have hclosed := homit f hf
      rw [Bool.eq_false_iff.mpr hpresence, Bool.false_or, Bool.not_eq_true'] at hclosed
      rw [if_neg hpresence, Masks.isSet_eq_opens hg, hclosed]
      rfl

/-- The masks of an object whose fields are settled are found, and are those they are settled
with. -/
theorem resolveMasks_eq (hn : Field.Numbered 0 fields) (h : Settled masks entries fields) :
    resolveMasks fields entries = .ok (impliedMasks fields entries) ∧
      ∀ f ∈ fields, SeesSame f masks (impliedMasks fields entries) entries entries := by
  obtain ⟨m, -, -, hdeclared, hbound⟩ :=
    Field.Numbered.split (show Field.Numbered 0 (fields ++ []) by rw [List.append_nil]; exact hn)
  have hsame : ∀ slot, slot < m → masks slot = impliedMasks fields entries slot := by
    intro slot hslot
    obtain ⟨f, hf, hfslot⟩ := hdeclared slot (Nat.zero_le slot) hslot
    obtain ⟨v, hv, hbits⟩ := h.supplied f hf slot hfslot
    exact (impliedMasks_of_supplied hn hf hfslot hv hbits).symm
  have hsees : ∀ f ∈ fields, SeesSame f masks (impliedMasks fields entries) entries entries :=
    fun f hf ↦ ⟨fun slot hslot ↦ hsame slot ((hbound f hf).1 slot hslot),
      fun g hg ↦ hsame g.slot ((hbound f hf).2 g hg), rfl⟩
  refine ⟨(resolveMasks_eq_ok_iff hn).mpr ⟨rfl, fun f hf slot hslot v hv ↦ ?_,
    fun f hf ↦ (hsees f hf).agrees (h.agrees f hf)⟩, hsees⟩
  obtain ⟨v', hv', hbits⟩ := h.supplied f hf slot hslot
  obtain rfl := Option.some.inj (hv.symm.trans hv')
  exact ⟨_, hbits⟩

end Settled

end Message

end TypeLang
