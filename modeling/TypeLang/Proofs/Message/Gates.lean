import TypeLang.Message.Decode
import TypeLang.Proofs.Message.LeastMasks
import TypeLang.Proofs.Message.Progress
import TypeLang.Proofs.Schema.Compatibility

/-!
Whether a conditional field is there is asked in several places: readers and writers test the word
of its gate, the masks of an object get that word from what is supplied, and a value is checked
against the bit of that number. All of them agree for a combinator (`Combinator.GatesAgree`) just
when every gate has a bit that a mask has, which is so in every schema that has a source
(`Schema.gatesAgree_iff_bits`). Declarations made without a source may have other bits. The word of
such a gate is shifted too far, which ends every reader and writer that comes to it, while the check
of a value takes the bit for one that is never set (`Field.OverflowsAt`).
-/

set_option autoImplicit false
set_option relaxedAutoImplicit false

namespace TypeLang

open Wire Message

/-! ### Bits that no mask has -/

section

variable {masks : Masks} {f : Field} {g : Gate} {bits : UInt32} {entries : Entries}

theorem Wire.hasBit_of_le (bits : UInt32) {bit : UInt8} (h : 32 ≤ bit) :
    hasBit bits bit = false := by
  unfold hasBit bitMask
  rw [if_neg (UInt8.not_lt.mpr h), UInt32.and_zero]
  rfl

theorem Masks.asks_of_le (hg : f.gate = some g) (h : 32 ≤ g.bit) :
    masks.asks f = .error .overflow :=
  asks_of_not_testable fun htestable ↦ UInt8.not_lt.mpr h (htestable g hg)

theorem Message.Progress.checkBit_of_le (hg : f.gate = some g) (h : 32 ≤ g.bit) (p : Progress)
    (v : Value) : p.checkBit f v = .error .overflow := by
  unfold checkBit
  simp only [hg, Masks.test_of_le h]

theorem Message.checkField_of_le (hg : f.gate = some g) (h : 32 ≤ g.bit) (masks : Masks)
    (value : Option Value) : checkField masks f value = .error .overflow := by
  unfold checkField
  simp only [hg, Masks.test_of_le h]

/-- A step that fails ends a fold, unless one before it failed already. -/
theorem foldlM_eq_error {α β : Type} {e : Error} {step : β → α → Except Error β} {items : List α}
    (hstep : ∀ b a found, step b a = .error found → found = e) {a : α} (ha : a ∈ items)
    (hfails : ∀ b, step b a = .error e) (b : β) : items.foldlM step b = .error e := by
  induction items generalizing b with
  | nil => cases ha
  | cons first rest ih =>
    rw [List.foldlM_cons]
    cases hfirst : step b first with
    | error found =>
      obtain rfl := hstep b first found hfirst
      rfl
    | ok next =>
      rcases List.mem_cons.mp ha with rfl | ha
      · rw [hfails b] at hfirst
        cases hfirst
      · exact ih ha next

theorem Message.derivedMask_of_le (hg : f.gate = some g) (h : 32 ≤ g.bit) {fields : List Field}
    (hf : f ∈ fields) (hsupplied : isSupplied f (entries.find? f.name) = true) :
    derivedMask entries g.slot fields = .error .overflow := by
  refine foldlM_eq_error (fun bits e found hfound ↦ ?_) hf (fun bits ↦ ?_) 0
  · split at hfound
    · split at hfound
      · rename_i own _ _
        by_cases hown : own.bit < 32
        · rw [Masks.gateWord_eq hown] at hfound
          cases hfound
        · rw [Masks.gateWord_of_le (UInt8.not_lt.mp hown)] at hfound
          cases hfound
          rfl
      · cases hfound
    · cases hfound
  · simp only [hg, hsupplied, and_self, if_true, Masks.gateWord_of_le h]
    rfl

end

/-! ### Gates that all read alike -/

/-- A value fits a bit: the truth value of a presence field is the bit, and any other field is
supplied just when the bit is set. -/
def Field.Fits (f : Field) (value : Option Value) (bit : Bool) : Prop :=
  if f.isPresence then ∀ b, value = some (.bool b) → b = bit else isSupplied f value = bit

/-- All that ask whether a conditional field is there get the same answer: readers and writers of
whole objects, writers that put down one field after the other, the check of what is supplied, and
the mask that is derived from what is supplied. -/
structure Combinator.GatesAgree (c : Combinator) : Prop where
  asks : ∀ f ∈ c.fields, ∀ g, f.gate = some g → ∀ masks : Masks,
    masks.asks f = .ok (hasBit (masks g.slot) g.bit)
  writes : ∀ f ∈ c.fields, ∀ g, f.gate = some g → ∀ (p : Progress) (v : Value),
    p.checkBit f v = .ok () ↔
      if f.isPresence then f.Fits (some v) (hasBit (p.masks g.slot) g.bit)
      else hasBit (p.masks g.slot) g.bit = true
  checks : ∀ f ∈ c.fields, ∀ g, f.gate = some g → ∀ (masks : Masks) (value : Option Value),
    checkField masks f value = .ok () ↔ f.Fits value (hasBit (masks g.slot) g.bit)
  derives : ∀ f ∈ c.fields, ∀ g, f.gate = some g → ∀ entries : Entries,
    ∃ bits, derivedMask entries g.slot c.fields = .ok bits ∧
      (hasBit bits g.bit = true ↔
        ∃ e ∈ c.fields, e.gate = some g ∧ isSupplied e (entries.find? e.name) = true)

/-- What comes of a gate whose bit no mask has. Its word is shifted too far wherever it is tested or
derived, and for the check of a value the bit is never set, so that no value is taken. -/
structure Field.OverflowsAt (f : Field) (g : Gate) : Prop where
  asks : ∀ masks : Masks, masks.asks f = .error .overflow
  writes : ∀ (p : Progress) (v : Value), p.checkBit f v = .error .overflow
  checks : ∀ (masks : Masks) (value : Option Value), checkField masks f value = .error .overflow
  derives : ∀ (entries : Entries) (fields : List Field), f ∈ fields →
    isSupplied f (entries.find? f.name) = true →
      derivedMask entries g.slot fields = .error .overflow
  never_set : ∀ bits : UInt32, hasBit bits g.bit = false
  never_taken : ∀ (bits : UInt32) (supplied : Bool) (name : String),
    checkGate bits g.bit supplied name = .ok () ↔ supplied = false

theorem Field.overflowsAt {f : Field} {g : Gate} (hg : f.gate = some g) (h : 32 ≤ g.bit) :
    f.OverflowsAt g where
  asks _ := Masks.asks_of_le hg h
  writes := Progress.checkBit_of_le hg h
  checks := checkField_of_le hg h
  derives _ _ hf hsupplied := derivedMask_of_le hg h hf hsupplied
  never_set bits := hasBit_of_le bits h
  never_taken bits supplied name := by rw [checkGate_eq_ok_iff, hasBit_of_le bits h]

namespace Combinator

variable {c : Combinator} {f : Field} {g : Gate}

theorem gatesAgree_of_bit_lt (h : ∀ f ∈ c.fields, f.Testable) : c.GatesAgree where
  asks f hf g hg masks := by
    rw [Masks.asks_eq (h f hf), ← Masks.isSet_eq_opens hg, Masks.isSet]
  writes f hf g hg p v := by
    rw [Progress.checkBit_eq_ok_iff (h f hf)]
    unfold Progress.Admits Field.Fits Masks.isSet
    by_cases hpresence : f.isPresence = true <;> simp [hpresence, hg]
  checks f hf g hg masks value := by
    rw [checkField_eq_ok_iff (h f hf)]
    unfold Agrees Field.Fits Masks.isSet
    simp [hg]
  derives f hf g hg entries := by
    refine ⟨_, derivedMask_eq h g.slot, ?_⟩
    rw [hasBit_suppliedBits h]
    refine exists_congr fun e ↦ and_congr_right fun _ ↦ ⟨?_, ?_⟩
    · rintro ⟨⟨_, _⟩, hother, rfl, rfl, hsupplied⟩
      exact ⟨hother, hsupplied⟩
    · rintro ⟨he, hsupplied⟩
      exact ⟨g, he, rfl, rfl, hsupplied⟩

theorem GatesAgree.bit_lt (h : c.GatesAgree) (hf : f ∈ c.fields) (hg : f.gate = some g) :
    g.bit < 32 := by
  refine UInt8.not_le.mp fun hle ↦ ?_
  have hasked := h.asks f hf g hg .empty
  rw [Masks.asks_of_le hg hle] at hasked
  cases hasked

theorem gatesAgree_iff :
    c.GatesAgree ↔ ∀ f ∈ c.fields, ∀ g, f.gate = some g → g.bit < 32 :=
  ⟨fun h _ hf _ hg ↦ h.bit_lt hf hg, gatesAgree_of_bit_lt⟩

/-- The bits of gates are those that conditions name. -/
theorem LaidOut.bit_lt_iff (h : c.LaidOut) :
    (∀ f ∈ c.fields, ∀ g, f.gate = some g → g.bit < 32) ↔
      ∀ a ∈ c.declaration.arguments, ∀ condition, a.condition = some condition →
        condition.bit < 32 := by
  constructor
  · intro hp a ha condition hcondition
    obtain ⟨j, hlt, rfl⟩ := List.mem_iff_getElem.mp ha
    have hargument := List.getElem?_eq_getElem hlt
    have hfield := List.getElem?_eq_getElem (h.length_eq ▸ hlt)
    have hgated := h.gate_isSome j _ _ hargument hfield
    rw [hcondition] at hgated
    obtain ⟨g, hg⟩ := Option.isSome_iff_exists.mp hgated
    rw [← (h.gate_eq j _ _ condition g hargument hfield hcondition hg).1]
    exact hp _ (List.getElem_mem _) g hg
  · intro hp f hf g hg
    obtain ⟨j, hlt, rfl⟩ := List.mem_iff_getElem.mp hf
    have hfield := List.getElem?_eq_getElem hlt
    have hargument := List.getElem?_eq_getElem (h.length_eq ▸ hlt)
    have hgated := h.gate_isSome j _ _ hargument hfield
    rw [hg] at hgated
    obtain ⟨condition, hcondition⟩ := Option.isSome_iff_exists.mp hgated.symm
    rw [(h.gate_eq j _ _ condition g hargument hfield hcondition hg).1]
    exact hp _ (List.getElem_mem _) condition hcondition

end Combinator

/-! ### Gates of schemas -/

namespace Schema

variable {s : Schema} {ds : List Declaration}

theorem laidOut_of_ofDeclarations (h : ofDeclarations ds = .ok s) {c : Combinator}
    (hc : c ∈ s.combinators) : c.declaration ∈ ds ∧ c.LaidOut := by
  obtain ⟨hcompatible, rfl⟩ := ofDeclarations_eq_ok_iff.mp h
  obtain ⟨d, hd, rfl⟩ := List.mem_map.mp hc
  exact ⟨hd, Combinator.laidOut_ofDeclaration (hcompatible.resolvable d hd)⟩

/-- All that ask for the conditional fields of a combinator agree just when no word of a gate is
shifted by the width of a mask or more, that is, when every condition names one of the 32 bits. A
source has no other conditions. A field with another one overflows. -/
theorem gatesAgree_iff_bits (h : ofDeclarations ds = .ok s) :
    (∀ source, Declaration.parse source = .ok ds → ∀ c ∈ s.combinators, c.GatesAgree) ∧
      ∀ c ∈ s.combinators,
        (c.GatesAgree ↔ ∀ f ∈ c.fields, ∀ g, f.gate = some g → g.bit < 32) ∧
        (c.GatesAgree ↔ ∀ a ∈ c.declaration.arguments, ∀ condition,
          a.condition = some condition → condition.bit < 32) ∧
        ∀ f ∈ c.fields, ∀ g, f.gate = some g → 32 ≤ g.bit → f.OverflowsAt g := by
  refine ⟨fun source hparse c hc ↦ ?_, fun c hc ↦ ⟨Combinator.gatesAgree_iff, ?_, ?_⟩⟩
  · obtain ⟨hd, hlaid⟩ := laidOut_of_ofDeclarations h hc
    have hsound := Declaration.arguments_sound_of_parse hparse c.declaration hd
    exact Combinator.gatesAgree_of_bit_lt
      (hlaid.bit_lt_iff.mpr fun a ha ↦ (hsound.fits a ha).bit_lt)
  · exact Combinator.gatesAgree_iff.trans (laidOut_of_ofDeclarations h hc).2.bit_lt_iff
  · exact fun f _ g hg hle ↦ Field.overflowsAt hg hle

/-- A declaration without a source, whose condition names a bit that no mask has. -/
def wide : Declaration where
  name := ⟨none, "wide"⟩
  tag := none
  generics := []
  arguments := [⟨"flags", .mask, none⟩, ⟨"value", .ofText "int", some ⟨"flags", 40⟩⟩]
  result := .ofText "Wide"
  isFunction := false
  position := ⟨0, 1, 1⟩

/-- The schema of that declaration. -/
def wideSchema : Schema := ⟨[.ofDeclaration wide]⟩

/-- The field of its conditional argument. -/
def wideField : Field := ⟨"value", .int, some ⟨0, 40⟩, none⟩

/-- All agree about lines, which have a source, and the gate of the other declaration overflows. -/
theorem gatesAgree_line :
    Declaration.parse lineSource = .ok [line.declaration] ∧
      ofDeclarations [line.declaration] = .ok lineSchema ∧ line.GatesAgree ∧
      ofDeclarations [wide] = .ok wideSchema ∧ wideField.OverflowsAt ⟨0, 40⟩ := by
  have hparse : Declaration.parse lineSource = .ok [line.declaration] :=
    ok_of_toOption (by decide +kernel)
  have hline : ofDeclarations [line.declaration] = .ok lineSchema := rfl
  have hwide : ofDeclarations [wide] = .ok wideSchema := rfl
  have hfield : wideField ∈ (Combinator.ofDeclaration wide).fields := by decide
  exact ⟨hparse, hline,
    (gatesAgree_iff_bits hline).1 lineSource hparse line List.mem_cons_self, hwide,
    ((gatesAgree_iff_bits hwide).2 _ List.mem_cons_self).2.2 wideField hfield ⟨0, 40⟩ rfl
      (by decide)⟩

/-- The schema of the other declaration is made, and about its conditional field they disagree: an
object cannot be read nor built for an overflow, where the check of a value says that the bit is
clear. -/
theorem not_gatesAgree_wide :
    ofDeclarations [wide] = .ok wideSchema ∧ ¬ (Combinator.ofDeclaration wide).GatesAgree ∧
      checkGate 256 40 false "value" = .ok () ∧
      wideSchema.read 0 (.named "wide") ⟨#[0, 1, 0, 0, 5, 0, 0, 0]⟩ 0 = .error .overflow ∧
      (wideSchema.build 0 "wide" [("flags", .mask 256), ("value", .int 5)]).outcome =
        .error .overflow := by
  refine ⟨rfl, fun hagree ↦ ?_, rfl, rfl, rfl⟩
  have hfield : wideField ∈ (Combinator.ofDeclaration wide).fields := by decide
  exact absurd (hagree.bit_lt hfield rfl) (by decide)

end Schema

end TypeLang
