import TypeLang.Wire.Mask

/-!
What the gate of a field says, as a truth value (`Masks.isSet`, `Masks.opens`), and when it can be
asked (`Field.Testable`). A gate that can be asked gives what it says. The word of any other one is
shifted too far, and asking it overflows (`Masks.asks_eq`, `Masks.asks_of_not_testable`).
-/

set_option autoImplicit false
set_option relaxedAutoImplicit false

namespace TypeLang

open Wire

/-- The gate of a field, if it has one, can be asked: a word has a bit of its number. -/
def Field.Testable (f : Field) : Prop := ∀ g, f.gate = some g → g.bit < 32

namespace Masks

variable {masks other : Masks} {f : Field} {g : Gate} {b : Bool}

/-- Whether the bit of a gate is set. A bit that no word has is not. -/
def isSet (masks : Masks) (g : Gate) : Bool := hasBit (masks g.slot) g.bit

/-- Whether a field is there, as its gate says. -/
def opens (masks : Masks) (f : Field) : Bool :=
  match f.gate with
  | some g => masks.isSet g
  | none => true

theorem isSet_eq_opens (hg : f.gate = some g) : masks.isSet g = masks.opens f := by
  unfold opens
  rw [hg]

theorem opens_of_gate_eq_none (hg : f.gate = none) : masks.opens f = true := by
  unfold opens
  rw [hg]

theorem gateWord_eq (h : g.bit < 32) : gateWord g = .ok (bitMask g.bit) := by
  unfold gateWord bitMask
  rw [if_pos h, if_pos h]

theorem gateWord_of_le (h : 32 ≤ g.bit) : gateWord g = .error .overflow :=
  if_neg (UInt8.not_lt.mpr h)

theorem test_eq (h : g.bit < 32) : masks.test g = .ok (masks.isSet g) := by
  unfold test
  rw [gateWord_eq h]
  rfl

theorem test_of_le (h : 32 ≤ g.bit) : masks.test g = .error .overflow := by
  unfold test
  rw [gateWord_of_le h]
  rfl

theorem asks_eq (h : f.Testable) : masks.asks f = .ok (masks.opens f) := by
  unfold asks opens
  cases hg : f.gate with
  | none => rfl
  | some g => exact test_eq (h g hg)

theorem asks_of_not_testable (h : ¬ f.Testable) : masks.asks f = .error .overflow := by
  obtain ⟨g, hrest⟩ := Classical.not_forall.mp h
  obtain ⟨hg, hbit⟩ := Classical.not_imp.mp hrest
  unfold asks
  rw [hg]
  exact test_of_le (UInt8.not_lt.mp hbit)

/-- A gate that gives an answer can be asked, and the answer is what it says. -/
theorem asks_eq_ok_iff : masks.asks f = .ok b ↔ f.Testable ∧ masks.opens f = b := by
  by_cases h : f.Testable
  · simp [asks_eq h, h]
  · simp [asks_of_not_testable h, h]

theorem opens_of_asks (h : masks.asks f = .ok b) : masks.opens f = b := (asks_eq_ok_iff.mp h).2

theorem skips_of_isPresence (masks : Masks) (h : f.isPresence = true) :
    masks.skips f = .ok true := if_pos h

/-- Nothing is written for a field whose value is its bit, nor for one that is not there. -/
theorem skips_eq (masks : Masks) (h : f.Testable) :
    masks.skips f = .ok (f.isPresence || !masks.opens f) := by
  unfold skips
  cases f.isPresence with
  | true => rfl
  | false =>
    rw [if_neg Bool.false_ne_true, asks_eq h]
    rfl

theorem skips_of_omits (h : f.Testable) (homit : (f.isPresence || !masks.opens f) = b) :
    masks.skips f = .ok b := homit ▸ skips_eq masks h

/-- What is skipped has no value to be written. -/
theorem omits_of_skips (h : masks.skips f = .ok b) : (f.isPresence || !masks.opens f) = b := by
  unfold skips at h
  cases hpresence : f.isPresence with
  | true =>
    rw [if_pos hpresence] at h
    cases h
    rfl
  | false =>
    rw [if_neg (Bool.eq_false_iff.mp hpresence)] at h
    cases hasks : masks.asks f with
    | error e => rw [hasks] at h; cases h
    | ok present =>
      rw [hasks] at h
      cases h
      rw [opens_of_asks hasks, Bool.false_or]

theorem skips_congr (h : masks.opens f = other.opens f) : masks.skips f = other.skips f := by
  by_cases htestable : f.Testable
  · rw [skips_eq masks htestable, skips_eq other htestable, h]
  · unfold skips
    rw [asks_of_not_testable htestable, asks_of_not_testable htestable]

/-- A field is skipped as its gate says, if masks that say the same have been asked. -/
theorem skips_of_asks (hpresence : f.isPresence = false) (hasks : masks.asks f = .ok b)
    (hsame : masks.opens f = other.opens f) : other.skips f = .ok !b := by
  obtain ⟨htestable, hopens⟩ := asks_eq_ok_iff.mp hasks
  rw [skips_eq other htestable, ← hsame, hopens, hpresence, Bool.false_or]

end Masks

end TypeLang
