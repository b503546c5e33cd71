import TypeLang.Message.Encode
import TypeLang.Proofs.Message.Masks

/-!
Masks that are found for the entries of an object, and those that could be. Masks are consistent
with entries (`Message.Consistent`) if they are the ones supplied and every bit agrees with what is
supplied for its fields. A derived mask has just the bits of the fields that are supplied
(`Message.hasBit_suppliedBits`), and these are set in all consistent masks. So masks are found
whenever there are consistent ones, and are the least of them (`Schema.resolveMasks_least`).
-/

set_option autoImplicit false
set_option relaxedAutoImplicit false

namespace TypeLang

open Wire Message

/-! ### Bits of words -/

namespace Wire

theorem toBitVec_shiftLeft_one {bit : UInt8} (h : bit < 32) :
    ((1 : UInt32) <<< bit.toUInt32).toBitVec = BitVec.twoPow 32 bit.toNat := by
  have hlt : bit.toNat < 32 := UInt8.lt_iff_toNat_lt.mp h
  have hshift : (bit.toUInt32.toBitVec % 32).toNat = bit.toNat := by
    simp
    omega
  rw [UInt32.toBitVec_shiftLeft, BitVec.shiftLeft_eq', hshift]
  rfl

theorem twoPow_ne_zero {i : Nat} (h : i < 32) : BitVec.twoPow 32 i ≠ 0#32 := by
  intro hzero
  have hself := BitVec.getLsbD_twoPow (w := 32) i i
  rw [hzero] at hself
  simp only [BitVec.getLsbD_zero, h, decide_true, Bool.and_self] at hself
  cases hself

/-- The bits of a word are its binary digits, and there are none beyond them. -/
theorem hasBit_eq_getLsbD (bits : UInt32) (bit : UInt8) :
    hasBit bits bit = bits.toBitVec.getLsbD bit.toNat := by
  unfold hasBit bitMask
  by_cases hbit : bit < 32
  · have hlt : bit.toNat < 32 := UInt8.lt_iff_toNat_lt.mp hbit
    rw [if_pos hbit, Bool.eq_iff_iff, bne_iff_ne, Ne, ← UInt32.toBitVec_inj, UInt32.toBitVec_and,
      toBitVec_shiftLeft_one hbit, BitVec.and_twoPow]
    cases hset : bits.toBitVec.getLsbD bit.toNat with
    | true => simpa using twoPow_ne_zero hlt
    | false => simp
  · have hge : 32 ≤ bit.toNat := Nat.not_lt.mp fun hlt ↦ hbit (UInt8.lt_iff_toNat_lt.mpr hlt)
    rw [if_neg hbit, BitVec.getLsbD_of_ge _ _ hge, UInt32.and_zero]
    rfl

/-- The word of a bit has no other bit. -/
theorem hasBit_bitMask {own : UInt8} (h : own < 32) (bit : UInt8) :
    hasBit (bitMask own) bit = true ↔ own = bit := by
  have hlt : own.toNat < 32 := UInt8.lt_iff_toNat_lt.mp h
  unfold bitMask
  rw [if_pos h, hasBit_eq_getLsbD, toBitVec_shiftLeft_one h, BitVec.getLsbD_twoPow,
    ← UInt8.toNat_inj]
  simp [hlt]

@[simp] theorem hasBit_zero (bit : UInt8) : hasBit 0 bit = false := by
  rw [hasBit_eq_getLsbD]
  simp

@[simp] theorem hasBit_or (bits other : UInt32) (bit : UInt8) :
    hasBit (bits ||| other) bit = (hasBit bits bit || hasBit other bit) := by
  simp only [hasBit_eq_getLsbD, UInt32.toBitVec_or, BitVec.getLsbD_or]

end Wire

/-- Every bit that is set in some masks is set in others. -/
def Masks.Within (masks other : Masks) : Prop :=
  ∀ slot bit, hasBit (masks slot) bit = true → hasBit (other slot) bit = true

namespace Message

variable {fields : List Field} {entries : Entries} {masks other : Masks}

/-! ### Derived masks -/

/-- A field is supplied and has a given bit of the mask of a given number. -/
def Supplies (entries : Entries) (slot : Nat) (bit : UInt8) (f : Field) : Prop :=
  ∃ g, f.gate = some g ∧ g.slot = slot ∧ g.bit = bit ∧ isSupplied f (entries.find? f.name) = true

theorem hasBit_addBit {f : Field} (htestable : f.Testable) (slot : Nat)
    (bits : UInt32) (bit : UInt8) :
    hasBit (addBit entries slot bits f) bit = true ↔
      hasBit bits bit = true ∨ Supplies entries slot bit f := by
  unfold addBit Supplies
  cases hg : f.gate with
  | none => simp
  | some g =>
    dsimp only
    by_cases hset : g.slot = slot ∧ isSupplied f (entries.find? f.name) = true
    · rw [if_pos hset, hasBit_or, Bool.or_eq_true, hasBit_bitMask (htestable g hg)]
      simp [hset]
    · rw [if_neg hset]
      simp only [Option.some.injEq, exists_eq_left']
      exact (or_iff_left fun h ↦ hset ⟨h.1, h.2.2⟩).symm

theorem hasBit_foldl_addBit (htestable : ∀ f ∈ fields, f.Testable) (slot : Nat)
    (bits : UInt32) (bit : UInt8) :
    hasBit (fields.foldl (addBit entries slot) bits) bit = true ↔
      hasBit bits bit = true ∨ ∃ f ∈ fields, Supplies entries slot bit f := by
  induction fields generalizing bits with
  | nil => simp
  | cons f rest ih =>
    obtain ⟨hhere, hrest⟩ := List.forall_mem_cons.mp htestable
    rw [List.foldl_cons, ih hrest, hasBit_addBit hhere]
    simp [or_assoc]

/-- A derived mask has just the bits of the fields that are supplied. -/
theorem hasBit_suppliedBits (htestable : ∀ f ∈ fields, f.Testable) (slot : Nat)
    (bit : UInt8) :
    hasBit (suppliedBits entries slot fields) bit = true ↔
      ∃ f ∈ fields, Supplies entries slot bit f := by
  unfold suppliedBits
  rw [hasBit_foldl_addBit htestable, hasBit_zero]
  simp

/-! ### Consistent masks -/

/-- What is supplied for masks and presence fields is of their types: masks or integers for masks,
and truth values or nothing for presence fields. -/
structure BitsTyped (fields : List Field) (entries : Entries) : Prop where
  masks : ∀ f ∈ fields, ∀ slot, f.slot = some slot → ∀ v, entries.find? f.name = some v →
    (∃ bits, v = .mask bits) ∨ ∃ x, v = .int x
  presence : ∀ f ∈ fields, f.isPresence = true → ∀ v, entries.find? f.name = some v →
    v = .null ∨ ∃ b, v = .bool b

/-- Masks are consistent with entries. They are those supplied; the bit of a presence field is the
truth value supplied for it, if one is; and the bit of any other conditional field is set just when
a value is supplied for it that is not null. -/
structure Consistent (fields : List Field) (entries : Entries) (masks : Masks) : Prop where
  supplied : ∀ f ∈ fields, ∀ slot, f.slot = some slot → ∀ v, entries.find? f.name = some v →
    v.toMask? = some (masks slot)
  presence : ∀ f ∈ fields, f.isPresence = true → ∀ g, f.gate = some g →
    ∀ b, entries.find? f.name = some (.bool b) → hasBit (masks g.slot) g.bit = b
  conditional : ∀ f ∈ fields, f.isPresence = false → ∀ g, f.gate = some g →
    (hasBit (masks g.slot) g.bit = true ↔ ∃ v, entries.find? f.name = some v ∧ v ≠ .null)

theorem isSupplied_iff {f : Field} (h : f.isPresence = false) {value : Option Value} :
    isSupplied f value = true ↔ ∃ v, value = some v ∧ v ≠ .null := by
  cases value with
  | none => simp [isSupplied]
  | some v => cases v <;> simp [isSupplied, h]

theorem BitsTyped.masksFit (h : BitsTyped fields entries) : MasksFit fields entries := by
  intro f hf slot hslot v hv
  rcases h.masks f hf slot hslot v hv with ⟨bits, rfl⟩ | ⟨x, rfl⟩
  · exact ⟨bits, rfl⟩
  · exact ⟨x.toUInt32, rfl⟩

/-- A presence field is supplied by nothing but the truth value that it is there. -/
theorem BitsTyped.isSupplied_presence (h : BitsTyped fields entries) {f : Field} (hf : f ∈ fields)
    (hpresence : f.isPresence = true) (hsupplied : isSupplied f (entries.find? f.name) = true) :
    entries.find? f.name = some (.bool true) := by
  cases hv : entries.find? f.name with
  | none => rw [hv] at hsupplied; cases hsupplied
  | some v =>
    rw [hv] at hsupplied
    rcases h.presence f hf hpresence v hv with rfl | ⟨b, rfl⟩
    · cases hsupplied
    · simp only [isSupplied, hpresence, Bool.not_true, Bool.or_false] at hsupplied
      rw [hsupplied]

theorem Consistent.agrees (h : Consistent fields entries masks) {f : Field} (hf : f ∈ fields) :
    Agrees masks f (entries.find? f.name) := by
  intro g hg
  unfold Masks.isSet
  cases hpresence : f.isPresence with
  | true => exact fun b hb ↦ (h.presence f hf hpresence g hg b hb).symm
  | false =>
    rw [if_neg Bool.false_ne_true, Bool.eq_iff_iff, h.conditional f hf hpresence g hg]
    exact isSupplied_iff hpresence

/-- Masks that values agree with, and that are the ones supplied, are consistent. -/
theorem consistent_of_agrees
    (hsupplied : ∀ f ∈ fields, ∀ slot, f.slot = some slot → ∀ v, entries.find? f.name = some v →
      v.toMask? = some (masks slot))
    (hagrees : ∀ f ∈ fields, Agrees masks f (entries.find? f.name)) :
    Consistent fields entries masks := by
  refine ⟨hsupplied, fun f hf hpresence g hg b hb ↦ ?_, fun f hf hpresence g hg ↦ ?_⟩
  · have hagree := hagrees f hf g hg
    rw [if_pos hpresence] at hagree
    exact (hagree b hb).symm
  · have hagree := hagrees f hf g hg
    rw [hpresence, if_neg Bool.false_ne_true] at hagree
    rw [show hasBit (masks g.slot) g.bit = masks.isSet g from rfl, ← hagree]
    exact isSupplied_iff hpresence

/-! ### The least of them -/

/-- An implied mask is the one supplied, or the derived one. -/
theorem impliedMasks_cases (fields : List Field) (entries : Entries) (slot : Nat) :
    (∃ f ∈ fields, f.slot = some slot ∧ ∃ v, entries.find? f.name = some v ∧
        impliedMasks fields entries slot = v.toMask?.getD 0) ∨
      impliedMasks fields entries slot = suppliedBits entries slot fields := by
  unfold impliedMasks
  cases hfind : fields.find? (·.slot == some slot) with
  | none => exact .inr rfl
  | some f =>
    rw [Option.bind_some]
    cases hv : entries.find? f.name with
    | none => exact .inr rfl
    | some v =>
      have hslot : f.slot = some slot := by simpa using List.find?_some hfind
      exact .inl ⟨f, List.mem_of_find?_eq_some hfind, hslot, v, hv, rfl⟩

namespace Consistent

/-- A mask that is supplied is the same in the implied masks. -/
theorem impliedMasks_eq_or (h : Consistent fields entries other) (slot : Nat) :
    impliedMasks fields entries slot = other slot ∨
      impliedMasks fields entries slot = suppliedBits entries slot fields := by
  rcases impliedMasks_cases fields entries slot with ⟨f, hf, hslot, v, hv, heq⟩ | heq
  · rw [h.supplied f hf slot hslot v hv] at heq
    exact .inl heq
  · exact .inr heq

/-- A bit of a field that is supplied is set. -/
theorem hasBit_of_supplies (h : Consistent fields entries other)
    (htyped : BitsTyped fields entries) {f : Field} (hf : f ∈ fields) {slot : Nat} {bit : UInt8}
    (hsupplies : Supplies entries slot bit f) : hasBit (other slot) bit = true := by
  obtain ⟨g, hg, rfl, rfl, hsupplied⟩ := hsupplies
  cases hpresence : f.isPresence with
  | true =>
    have htrue := htyped.isSupplied_presence hf hpresence hsupplied
    exact h.presence f hf hpresence g hg true htrue
  | false => exact (h.conditional f hf hpresence g hg).mpr ((isSupplied_iff hpresence).mp hsupplied)

theorem impliedMasks_within (h : Consistent fields entries other)
    (htyped : BitsTyped fields entries)
    (htestable : ∀ f ∈ fields, f.Testable) :
    (impliedMasks fields entries).Within other := by
  intro slot bit hset
  rcases h.impliedMasks_eq_or slot with heq | heq
  · rwa [heq] at hset
  · rw [heq] at hset
    obtain ⟨f, hf, hsupplies⟩ := (hasBit_suppliedBits htestable slot bit).mp hset
    exact h.hasBit_of_supplies htyped hf hsupplies

theorem hasBit_impliedMasks (h : Consistent fields entries other)
    (htyped : BitsTyped fields entries)
    (htestable : ∀ f ∈ fields, f.Testable) {f : Field} (hf : f ∈ fields)
    {g : Gate} (hg : f.gate = some g) (hsupplied : isSupplied f (entries.find? f.name) = true) :
    hasBit (impliedMasks fields entries g.slot) g.bit = true := by
  have hsupplies : Supplies entries g.slot g.bit f := ⟨g, hg, rfl, rfl, hsupplied⟩
  rcases h.impliedMasks_eq_or g.slot with heq | heq
  · rw [heq]
    exact h.hasBit_of_supplies htyped hf hsupplies
  · rw [heq]
    exact (hasBit_suppliedBits htestable g.slot g.bit).mpr ⟨f, hf, hsupplies⟩

/-- If any masks are consistent, values agree with the implied ones. -/
theorem agrees_impliedMasks (h : Consistent fields entries other)
    (htyped : BitsTyped fields entries)
    (htestable : ∀ f ∈ fields, f.Testable) {f : Field} (hf : f ∈ fields) :
    Agrees (impliedMasks fields entries) f (entries.find? f.name) := by
  intro g hg
  have hwithin := h.impliedMasks_within htyped htestable g.slot g.bit
  have himplied := h.hasBit_impliedMasks htyped htestable hf hg
  unfold Masks.isSet
  cases hpresence : f.isPresence with
  | true =>
    intro b hb
    have hother := h.presence f hf hpresence g hg b hb
    cases b with
    | true => exact (himplied (by rw [hb]; rfl)).symm
    | false =>
      refine (Bool.eq_false_iff.mpr fun hset ↦ ?_).symm
      rw [hwithin hset] at hother
      cases hother
  | false =>
    rw [if_neg Bool.false_ne_true, Bool.eq_iff_iff]
    refine ⟨himplied, fun hset ↦ ?_⟩
    exact (isSupplied_iff hpresence).mpr ((h.conditional f hf hpresence g hg).mp (hwithin hset))

end Consistent

/-- Masks that are found are consistent. -/
theorem consistent_of_resolveMasks (hn : Field.Numbered 0 fields)
    (h : resolveMasks fields entries = .ok masks) : Consistent fields entries masks := by
  obtain ⟨rfl, hfit, hagrees⟩ := (resolveMasks_eq_ok_iff hn).mp h
  refine consistent_of_agrees (fun f hf slot hslot v hv ↦ ?_) hagrees
  obtain ⟨bits, hbits⟩ := hfit f hf slot hslot v hv
  rw [impliedMasks_of_supplied hn hf hslot hv hbits, hbits]

/-- If any masks are consistent, the implied ones are found and are within them. -/
theorem Consistent.resolveMasks_eq (h : Consistent fields entries other)
    (hn : Field.Numbered 0 fields) (htyped : BitsTyped fields entries) :
    resolveMasks fields entries = .ok (impliedMasks fields entries) ∧
      (impliedMasks fields entries).Within other := by
  exact ⟨(resolveMasks_eq_ok_iff hn).mpr ⟨rfl, htyped.masksFit,
    fun f hf ↦ h.agrees_impliedMasks htyped hn.testable hf⟩,
    h.impliedMasks_within htyped hn.testable⟩

end Message

namespace Schema

variable {s : Schema} {c : Combinator} {name : String} {entries : Entries}

theorem build_of_resolveMasks_eq_error (held : Nat) (hc : s.combinator? name = some c)
    {e : Error} (h : resolveMasks c.fields entries = .error e) :
    (s.build held name entries).outcome = .error e := by
  have hlength : instanceLength (s.locateNamed name) entries
      (fun f => entryLength s f.name f.kind entries) = .error e := by
    unfold locateNamed instanceLength
    rw [hc]
    dsimp only
    rw [show c.located.combinator = c from rfl, h]
  unfold build
  dsimp only
  rw [hlength]
  rfl

/-- The masks of an object are found just when some masks are consistent with its entries, and are
the least of those. Otherwise the object is not built, since its state is invalid. -/
theorem resolveMasks_least {source : String} (hcompile : compile source = .ok s)
    (hc : s.combinator? name = some c) (htyped : BitsTyped c.fields entries) (held : Nat) :
    ((∃ masks, resolveMasks c.fields entries = .ok masks) ↔
        ∃ masks, Consistent c.fields entries masks) ∧
      (∀ masks, resolveMasks c.fields entries = .ok masks →
        Consistent c.fields entries masks ∧
          ∀ other, Consistent c.fields entries other → masks.Within other) ∧
      ((¬ ∃ masks, Consistent c.fields entries masks) →
        ∃ fault, resolveMasks c.fields entries = .error (.invalidState fault) ∧
          (s.build held name entries).outcome = .error (.invalidState fault)) := by
  have hn := ((sound_of_compile hcompile).combinator_sound c (mem_of_combinator? hc).1).numbered
  refine ⟨⟨?_, ?_⟩, fun masks hmasks ↦ ?_, fun hnone ↦ ?_⟩
  · rintro ⟨masks, hmasks⟩
    exact ⟨masks, consistent_of_resolveMasks hn hmasks⟩
  · rintro ⟨other, hother⟩
    exact ⟨_, (hother.resolveMasks_eq hn htyped).1⟩
  · refine ⟨consistent_of_resolveMasks hn hmasks, fun other hother ↦ ?_⟩
    obtain ⟨hfound, hwithin⟩ := hother.resolveMasks_eq hn htyped
    rw [Except.ok.inj (hmasks.symm.trans hfound)]
    exact hwithin
  · cases hmasks : resolveMasks c.fields entries with
    | ok masks => exact absurd ⟨masks, consistent_of_resolveMasks hn hmasks⟩ hnone
    | error e =>
      obtain ⟨fault, rfl⟩ := invalidState_of_resolveMasks hn hmasks
      exact ⟨fault, rfl, build_of_resolveMasks_eq_error held hc hmasks⟩

/-- Of the masks that a line may have for a label and no next line, the one found has the bit of the
label alone. -/
theorem resolveMasks_least_line :
    ∃ masks, resolveMasks line.fields [("label", .bytes ⟨#[97]⟩), ("next", .null)] = .ok masks ∧
      masks 0 = 1 ∧
      Consistent line.fields [("label", .bytes ⟨#[97]⟩), ("next", .null)] masks ∧
      ∀ other, Consistent line.fields [("label", .bytes ⟨#[97]⟩), ("next", .null)] other →
        masks.Within other := by
  have htyped : BitsTyped line.fields [("label", .bytes ⟨#[97]⟩), ("next", .null)] := by
    constructor
    · intro f hf slot hslot v hv
      simp only [line, List.mem_cons, List.not_mem_nil, or_false] at hf
      rcases hf with rfl | rfl | rfl | rfl
      · exact nomatch (show none = some v from hv)
      all_goals cases hslot
    · intro f hf hpresence v hv
      simp only [line, List.mem_cons, List.not_mem_nil, or_false] at hf
      rcases hf with rfl | rfl | rfl | rfl <;> cases hpresence
  obtain ⟨-, hleast, -⟩ := resolveMasks_least compile_lineSource
    (show lineSchema.combinator? "line" = some line from rfl) htyped 0
  have hfound : ((resolveMasks line.fields
      [("label", .bytes ⟨#[97]⟩), ("next", .null)]).toOption.map fun masks => masks 0) =
        some 1 := by
    decide +kernel
  obtain ⟨masks, hmasks, hmask⟩ := Option.map_eq_some_iff.mp hfound
  exact ⟨masks, ok_of_toOption hmasks, hmask, hleast masks (ok_of_toOption hmasks)⟩

end Schema

end TypeLang
