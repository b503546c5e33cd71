import Mathlib.Algebra.Group.Nat.Defs
import TypeLang.Text.Numeral

/-!
Numerals and the numbers they stand for. Reading a numeral without a sign is an equivalence with
`Numeral.Stands` (`read?_eq_some_iff`), and the digits that tags and bits are written in stand for
what was written (`stands_word`, `stands_bit`).
-/

set_option autoImplicit false
set_option relaxedAutoImplicit false

namespace TypeLang.Text

namespace Hex

theorem toNat_lt_of_isDigit {c : Char} (h : isDigit c = true) : c.toNat < 0x80 := by
  have hle : ∀ {b : Char}, c ≤ b → c.toNat ≤ b.toNat := fun hb ↦ UInt32.le_iff_toNat_le.mp hb
  unfold isDigit digitValue? at h
  split at h
  · rename_i hrange
    have : c.toNat ≤ 0x39 := hle hrange.2
    omega
  split at h
  · rename_i hrange
    have : c.toNat ≤ 0x66 := hle hrange.2
    omega
  split at h
  · rename_i hrange
    have : c.toNat ≤ 0x46 := hle hrange.2
    omega
  · cases h

theorem utf8ByteSize_of_isDigit {digits : List Char}
    (h : ∀ c ∈ digits, isDigit c = true) :
    (String.ofList digits).utf8ByteSize = digits.length := by
  induction digits with
  | nil => rfl
  | cons c rest ih =>
    have hrest := ih fun d hd ↦ h d (List.mem_cons_of_mem _ hd)
    have hfirst : c.utf8Size = 1 := by
      have hascii := toNat_lt_of_isDigit (h c List.mem_cons_self)
      rw [Char.utf8Size, if_pos]
      exact UInt32.le_iff_toNat_le.mpr (Nat.le_of_lt_succ hascii)
    have hsplit : String.ofList (c :: rest) = String.singleton c ++ String.ofList rest := by
      apply String.toList_inj.mp
      simp
    rw [hsplit, String.utf8ByteSize_append, String.utf8ByteSize_singleton, hrest, hfirst,
      List.length_cons, Nat.add_comm]

theorem digitValue?_digit {n : Nat} (h : n < 16) : digitValue? (digit n) = some n := by
  have hall : ∀ n : Fin 16, digitValue? (digit n) = some n.val := by decide
  exact hall ⟨n, h⟩

theorem length_fixed (width n : Nat) : (fixed width n).length = width := by
  induction width generalizing n with
  | zero => rfl
  | succ width ih => simp only [fixed, List.length_append, ih, List.length_singleton]

end Hex

namespace Numeral

variable {radix : Nat}

theorem readDigits?_append (acc : Nat) (front back : List Char) :
    readDigits? radix acc (front ++ back) =
      (readDigits? radix acc front).bind fun n ↦ readDigits? radix n back := by
  fun_induction readDigits? radix acc front with
  | case1 => simp
  | case2 acc c rest d hd hlt ih =>
    simpa only [List.cons_append, readDigits?, hd, if_pos hlt] using ih
  | case3 acc c rest d hd hlt => simp [readDigits?, hd, hlt]
  | case4 acc c rest hd => simp [readDigits?, hd]

theorem digitValue?_of_readDigits? {acc n : Nat} {digits : List Char}
    (h : readDigits? radix acc digits = some n) :
    ∀ c ∈ digits, ∃ d, Hex.digitValue? c = some d ∧ d < radix := by
  fun_induction readDigits? radix acc digits with
  | case1 => exact nofun
  | case2 acc c rest d hd hlt ih =>
    intro other hother
    rcases List.mem_cons.mp hother with rfl | hother
    · exact ⟨d, hd, hlt⟩
    · exact ih h other hother
  | case3 => cases h
  | case4 => cases h

theorem readDigits?_lt {acc n : Nat} {digits : List Char}
    (h : readDigits? radix acc digits = some n) : n < (acc + 1) * radix ^ digits.length := by
  fun_induction readDigits? radix acc digits with
  | case1 acc =>
    obtain rfl := Option.some.inj h
    simp
  | case2 acc c rest d hd hlt ih =>
    calc n < (acc * radix + d + 1) * radix ^ rest.length := ih h
      _ ≤ ((acc + 1) * radix) * radix ^ rest.length := by
        refine Nat.mul_le_mul_right _ ?_
        rw [Nat.succ_mul]
        omega
      _ = (acc + 1) * radix ^ (c :: rest).length := by
        rw [List.length_cons, Nat.pow_succ, Nat.mul_assoc, Nat.mul_comm radix]
  | case3 => cases h
  | case4 => cases h

/-- Digits of a radix, at least one, and the number that they stand for. -/
structure Stands (radix : Nat) (digits : List Char) (value : Nat) : Prop where
  ne_nil : digits ≠ []
  reads : readDigits? radix 0 digits = some value

namespace Stands

variable {digits : List Char} {value : Nat}

theorem isDigit (h : Stands radix digits value) : ∀ c ∈ digits, Hex.isDigit c = true := by
  intro c hc
  obtain ⟨d, hd, _⟩ := digitValue?_of_readDigits? h.reads c hc
  rw [Hex.isDigit, hd, Option.isSome_some]

theorem notMem (h : Stands radix digits value) {c : Char} (hc : Hex.isDigit c = false) :
    c ∉ digits := by
  intro hmem
  rw [h.isDigit c hmem] at hc
  cases hc

theorem lt (h : Stands radix digits value) : value < radix ^ digits.length := by
  simpa using readDigits?_lt h.reads

end Stands

theorem unsigned_of_notMem {text : List Char} (h : '+' ∉ text) : unsigned text = text := by
  unfold unsigned
  split
  · exact absurd List.mem_cons_self h
  · rfl

theorem read?_eq_some_iff {bound n : Nat} {digits : List Char} (h : '+' ∉ digits) :
    read? radix bound digits = some n ↔ Stands radix digits n ∧ n < bound := by
  unfold read?
  rw [unsigned_of_notMem h]
  split
  · exact ⟨nofun, fun hstands ↦ absurd rfl hstands.1.ne_nil⟩
  · rename_i hne
    rw [Option.filter_eq_some_iff, decide_eq_true_iff]
    exact ⟨fun hread ↦ ⟨⟨hne, hread.1⟩, hread.2⟩, fun hstands ↦ ⟨hstands.1.reads, hstands.2⟩⟩

theorem readDigits?_fixed (width acc n : Nat) :
    readDigits? 16 acc (Hex.fixed width n) = some (acc * 16 ^ width + n % 16 ^ width) := by
  induction width generalizing n with
  | zero => simp [Hex.fixed, readDigits?, Nat.mod_one]
  | succ width ih =>
    have hdigit : n % 16 < 16 := Nat.mod_lt n (by decide)
    rw [Hex.fixed, readDigits?_append, ih, Option.bind_some, readDigits?,
      Hex.digitValue?_digit hdigit]
    dsimp only
    rw [if_pos hdigit, readDigits?, Nat.pow_succ', Nat.mod_mul, Nat.add_mul]
    congr 1
    rw [Nat.mul_assoc, Nat.mul_comm (16 ^ width) 16, Nat.mul_comm (n / 16 % 16 ^ width) 16]
    omega

/-- A tag is written in eight digits that stand for it. -/
theorem stands_word (tag : UInt32) : Stands 16 (Hex.fixed 8 tag.toNat) tag.toNat := by
  constructor
  · intro hnil
    have hlength := Hex.length_fixed 8 tag.toNat
    rw [hnil] at hlength
    cases hlength
  · have hlt : tag.toNat < 16 ^ 8 := tag.toNat_lt
    rw [readDigits?_fixed, Nat.zero_mul, Nat.zero_add, Nat.mod_eq_of_lt hlt]

/-- The number of a bit is written in decimal digits that stand for it. -/
theorem stands_bit {bit : Nat} (h : bit < 32) : Stands 10 (toString bit).toList bit := by
  have hall : ∀ bit : Fin 32, (toString bit.val).toList ≠ [] ∧
      readDigits? 10 0 (toString bit.val).toList = some bit.val := by decide
  obtain ⟨hne, hreads⟩ := hall ⟨bit, h⟩
  exact ⟨hne, hreads⟩

end Numeral

end TypeLang.Text
