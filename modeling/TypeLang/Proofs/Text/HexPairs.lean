import TypeLang.Proofs.Text.Numerals
import TypeLang.Proofs.Wire.Place
import TypeLang.Text.HexBytes

/-!
Hexadecimal text typed by hand, and the bytes it is read as. A text is taken without its blanks and
the marks before it (`HexBytes.Stripped`), and two characters stand for a byte if both are digits,
or if a plus sign stands before one digit (`HexBytes.read_exact`). So a text without plus signs is
read just when it is hexadecimal, and bytes that are shown in hexadecimal are read back.
-/

set_option autoImplicit false
set_option relaxedAutoImplicit false

namespace TypeLang.Text

/-! ### Digits -/

namespace Hex

/-- A character is the digit of a number, in either case. -/
def IsDigitOf (c : Char) (n : Nat) : Prop :=
  "0123456789abcdef".toList[n]? = some c ∨ "0123456789ABCDEF".toList[n]? = some c

instance (c : Char) (n : Nat) : Decidable (IsDigitOf c n) := inferInstanceAs (Decidable (_ ∨ _))

theorem IsDigitOf.lt {c : Char} {n : Nat} (h : IsDigitOf c n) : n < 16 := by
  rcases h with h | h <;> exact (List.getElem?_eq_some_iff.mp h).1

theorem digitValue?_eq_some_iff {c : Char} {n : Nat} :
    digitValue? c = some n ↔ IsDigitOf c n := by
  constructor
  · intro h
    have hall : ∀ k : Fin 0x80, ∀ n ∈ digitValue? (Char.ofNat k), IsDigitOf (Char.ofNat k) n := by
      decide +kernel
    have hascii : c.toNat < 0x80 := toNat_lt_of_isDigit (by rw [isDigit, h, Option.isSome_some])
    have hhere := hall ⟨c.toNat, hascii⟩ n
    rw [Char.ofNat_toNat] at hhere
    exact hhere h
  · intro h
    have hlower : ∀ n : Fin 16, "0123456789abcdef".toList[n.val]?.bind digitValue? =
        some n.val := by decide +kernel
    have hupper : ∀ n : Fin 16, "0123456789ABCDEF".toList[n.val]?.bind digitValue? =
        some n.val := by decide +kernel
    have hlt := h.lt
    rcases h with h | h
    · have hvalue := hlower ⟨n, hlt⟩
      rwa [h] at hvalue
    · have hvalue := hupper ⟨n, hlt⟩
      rwa [h] at hvalue

theorem IsDigitOf.toNat_lt {c : Char} {n : Nat} (h : IsDigitOf c n) : c.toNat < 0x80 :=
  toNat_lt_of_isDigit (by rw [isDigit, digitValue?_eq_some_iff.mpr h, Option.isSome_some])

theorem IsDigitOf.not_isBlank {c : Char} {n : Nat} (h : IsDigitOf c n) : isBlank c = false := by
  have hlower : "0123456789abcdef".toList.filter isBlank = [] := by decide
  have hupper : "0123456789ABCDEF".toList.filter isBlank = [] := by decide
  rcases h with h | h
  · exact Bool.eq_false_iff.mpr (List.filter_eq_nil_iff.mp hlower c (List.mem_of_getElem? h))
  · exact Bool.eq_false_iff.mpr (List.filter_eq_nil_iff.mp hupper c (List.mem_of_getElem? h))

theorem not_isDigitOf_plus (n : Nat) : ¬ IsDigitOf '+' n := by
  rw [← digitValue?_eq_some_iff]
  exact nofun

theorem not_isDigitOf_x (n : Nat) : ¬ IsDigitOf 'x' n := by
  rw [← digitValue?_eq_some_iff]
  exact nofun

/-- A byte is written in the digits of its upper and of its lower half. -/
theorem byte_eq_pair (b : UInt8) : ∃ high low, byte b = [high, low] ∧
    IsDigitOf high (b.toNat / 16) ∧ IsDigitOf low (b.toNat % 16) := by
  have hbyte : b.toNat < 16 * 16 := b.toNat_lt
  have hhigh : b.toNat / 16 < 16 := Nat.div_lt_of_lt_mul hbyte
  refine ⟨digit (b.toNat / 16), digit (b.toNat % 16), ?_, ?_, ?_⟩
  · unfold byte fixed fixed fixed
    rw [Nat.mod_eq_of_lt hhigh]
    rfl
  · exact digitValue?_eq_some_iff.mp (digitValue?_digit hhigh)
  · exact digitValue?_eq_some_iff.mp (digitValue?_digit (Nat.mod_lt _ (by decide)))

end Hex

/-! ### Pairs of characters -/

namespace HexBytes

open Hex Wire

/-- Two digits stand for a byte. -/
def IsDigitPair (a b : Char) (byte : UInt8) : Prop :=
  ∃ high low, IsDigitOf a high ∧ IsDigitOf b low ∧ byte.toNat = 16 * high + low

/-- Two characters are the numeral of a byte: two digits, or a plus sign and a digit. -/
def IsNumeralPair (a b : Char) (byte : UInt8) : Prop :=
  IsDigitPair a b byte ∨ a = '+' ∧ IsDigitOf b byte.toNat

/-- Bytes that pairs of characters stand for, one behind the other. -/
inductive Paired (pair : Char → Char → UInt8 → Prop) : List Char → List UInt8 → Prop
  | nil : Paired pair [] []
  | cons {a b : Char} {byte : UInt8} {rest : List Char} {bytes : List UInt8}
      (hfirst : pair a b byte) (hrest : Paired pair rest bytes) :
      Paired pair (a :: b :: rest) (byte :: bytes)

/-- What remains of a text without its blanks and the marks before it. -/
def Stripped (text rest : List Char) : Prop :=
  ∃ marks, text.filter (!isBlank ·) = (List.replicate marks ['0', 'x']).flatten ++ rest ∧
    ¬ ['0', 'x'] <+: rest

variable {text rest : List Char} {bytes : List UInt8} {a b : Char}

theorem IsDigitPair.numeral {byte : UInt8} (h : IsDigitPair a b byte) : IsNumeralPair a b byte :=
  .inl h

theorem IsDigitPair.ne_plus {byte : UInt8} (h : IsDigitPair a b byte) : a ≠ '+' ∧ b ≠ '+' := by
  obtain ⟨high, low, ha, hb, -⟩ := h
  constructor
  · rintro rfl
    exact not_isDigitOf_plus high ha
  · rintro rfl
    exact not_isDigitOf_plus low hb

theorem IsNumeralPair.digitPair {byte : UInt8} (h : IsNumeralPair a b byte) (ha : a ≠ '+') :
    IsDigitPair a b byte :=
  h.resolve_right fun hsigned ↦ ha hsigned.1

theorem IsNumeralPair.toNat_lt {byte : UInt8} (h : IsNumeralPair a b byte) :
    a.toNat < 0x80 ∧ b.toNat < 0x80 := by
  rcases h with ⟨high, low, ha, hb, -⟩ | ⟨rfl, hb⟩
  · exact ⟨ha.toNat_lt, hb.toNat_lt⟩
  · exact ⟨by decide, hb.toNat_lt⟩

theorem readDigits?_cons_eq_some_iff {acc n : Nat} :
    Numeral.readDigits? 16 acc (a :: rest) = some n ↔
      ∃ d, IsDigitOf a d ∧ Numeral.readDigits? 16 (acc * 16 + d) rest = some n := by
  simp only [← digitValue?_eq_some_iff]
  rw [Numeral.readDigits?]
  cases hd : digitValue? a with
  | none => simp
  | some d =>
    dsimp only
    rw [if_pos (digitValue?_eq_some_iff.mp hd).lt]
    simp

theorem readDigits?_singleton_eq_some_iff {acc n : Nat} :
    Numeral.readDigits? 16 acc [a] = some n ↔ ∃ d, IsDigitOf a d ∧ acc * 16 + d = n := by
  rw [readDigits?_cons_eq_some_iff]
  simp only [Numeral.readDigits?, Option.some.injEq]

theorem read?_eq_some_iff_of_ne_nil (h : Numeral.unsigned text ≠ []) {byte : UInt8} :
    (Numeral.read? 16 256 text).map UInt8.ofNat = some byte ↔
      Numeral.readDigits? 16 0 (Numeral.unsigned text) = some byte.toNat := by
  unfold Numeral.read?
  split
  · rename_i hnil
    exact absurd hnil h
  · simp only [Option.map_eq_some_iff, Option.filter_eq_some_iff, decide_eq_true_iff]
    constructor
    · rintro ⟨n, ⟨hread, hlt⟩, rfl⟩
      rwa [UInt8.toNat_ofNat_of_lt' hlt]
    · intro hread
      exact ⟨byte.toNat, ⟨hread, byte.toNat_lt⟩, UInt8.ofNat_toNat⟩

/-- What is read in two characters is the byte that they are the numeral of. -/
theorem read?_pair_eq_some_iff {byte : UInt8} :
    (Numeral.read? 16 256 [a, b]).map UInt8.ofNat = some byte ↔ IsNumeralPair a b byte := by
  by_cases ha : a = '+'
  · subst ha
    have hunsigned : Numeral.unsigned ['+', b] = [b] := rfl
    rw [read?_eq_some_iff_of_ne_nil (by rw [hunsigned]; exact List.cons_ne_nil _ _), hunsigned,
      readDigits?_singleton_eq_some_iff]
    constructor
    · rintro ⟨d, hb, hd⟩
      obtain rfl : d = byte.toNat := by omega
      exact .inr ⟨rfl, hb⟩
    · rintro (hdigits | ⟨-, hb⟩)
      · exact absurd rfl hdigits.ne_plus.1
      · exact ⟨byte.toNat, hb, by omega⟩
  · have hunsigned : Numeral.unsigned [a, b] = [a, b] := by
      unfold Numeral.unsigned
      split
      · rename_i heq
        exact absurd (List.cons.inj heq).1 ha
      · rfl
    rw [read?_eq_some_iff_of_ne_nil (by rw [hunsigned]; exact List.cons_ne_nil _ _), hunsigned,
      readDigits?_cons_eq_some_iff]
    simp only [readDigits?_singleton_eq_some_iff]
    constructor
    · rintro ⟨high, hhigh, low, hlow, hbyte⟩
      exact .inl ⟨high, low, hhigh, hlow, by omega⟩
    · intro hpair
      obtain ⟨high, low, hhigh, hlow, hbyte⟩ := hpair.digitPair ha
      exact ⟨high, hhigh, low, hlow, by omega⟩

/-! ### Texts -/

namespace Paired

variable {pair other : Char → Char → UInt8 → Prop}

theorem mono (h : ∀ a b byte, pair a b byte → other a b byte) (hpaired : Paired pair text bytes) :
    Paired other text bytes := by
  induction hpaired with
  | nil => exact .nil
  | cons hfirst _ ih => exact .cons (h _ _ _ hfirst) ih

theorem length_eq (h : Paired pair text bytes) : text.length = 2 * bytes.length := by
  induction h with
  | nil => rfl
  | cons _ _ ih =>
    simp only [List.length_cons]
    omega

/-- What both characters of every pair satisfy holds of all characters. -/
theorem forall_mem {p : Char → Prop} (h : ∀ a b byte, pair a b byte → p a ∧ p b)
    (hpaired : Paired pair text bytes) : ∀ c ∈ text, p c := by
  induction hpaired with
  | nil => exact nofun
  | cons hfirst _ ih =>
    obtain ⟨ha, hb⟩ := h _ _ _ hfirst
    exact List.forall_mem_cons.mpr ⟨ha, List.forall_mem_cons.mpr ⟨hb, ih⟩⟩

end Paired

/-- Numerals without plus signs are pairs of digits. -/
theorem paired_digits_iff :
    Paired IsDigitPair text bytes ↔ Paired IsNumeralPair text bytes ∧ '+' ∉ text := by
  constructor
  · intro h
    refine ⟨h.mono fun _ _ _ ↦ IsDigitPair.numeral, fun hplus ↦ ?_⟩
    exact h.forall_mem (p := (· ≠ '+')) (fun _ _ _ ↦ IsDigitPair.ne_plus) '+' hplus rfl
  · rintro ⟨h, hplus⟩
    induction h with
    | nil => exact .nil
    | cons hfirst _ ih =>
      rw [List.mem_cons, List.mem_cons, not_or, not_or] at hplus
      exact .cons (hfirst.digitPair (Ne.symm hplus.1)) (ih hplus.2.2)

theorem exists_paired_of_digits (text : List Char) (heven : text.length % 2 = 0)
    (hdigits : ∀ c ∈ text, ∃ n, IsDigitOf c n) : ∃ bytes, Paired IsDigitPair text bytes := by
  match text with
  | [] => exact ⟨[], .nil⟩
  | [_] => cases heven
  | a :: b :: rest =>
    obtain ⟨⟨high, ha⟩, ⟨low, hb⟩, hrest⟩ := by
      simpa only [List.forall_mem_cons] using hdigits
    have hbound : 16 * high + low < 256 := by
      have := ha.lt
      have := hb.lt
      omega
    have hshorter : rest.length % 2 = 0 := by
      simp only [List.length_cons] at heven
      omega
    obtain ⟨bytes, hbytes⟩ := exists_paired_of_digits rest hshorter hrest
    exact ⟨UInt8.ofNat (16 * high + low) :: bytes,
      .cons ⟨high, low, ha, hb, UInt8.toNat_ofNat_of_lt' hbound⟩ hbytes⟩

/-- Texts of an even number of digits stand for bytes, and no others do. -/
theorem exists_paired_digits_iff :
    (∃ bytes, Paired IsDigitPair text bytes) ↔
      text.length % 2 = 0 ∧ ∀ c ∈ text, ∃ n, IsDigitOf c n := by
  constructor
  · rintro ⟨bytes, h⟩
    refine ⟨by rw [h.length_eq]; omega, h.forall_mem fun a b byte hpair ↦ ?_⟩
    obtain ⟨high, low, ha, hb, -⟩ := hpair
    exact ⟨⟨high, ha⟩, low, hb⟩
  · rintro ⟨heven, hdigits⟩
    exact exists_paired_of_digits text heven hdigits

theorem readPairs_eq_ok_iff (index : Nat) (heven : text.length % 2 = 0) :
    readPairs index text = .ok bytes ↔ Paired IsNumeralPair text bytes := by
  fun_induction readPairs index text generalizing bytes with
  | case1 index a b rest hnone =>
    refine ⟨nofun, fun h ↦ ?_⟩
    cases h with
    | cons hfirst _ =>
      rw [← read?_pair_eq_some_iff, hnone] at hfirst
      cases hfirst
  | case2 index a b rest n hsome ih =>
    have hpair : ∀ byte, IsNumeralPair a b byte ↔ UInt8.ofNat n = byte := fun byte ↦ by
      rw [← read?_pair_eq_some_iff, hsome, Option.map_some, Option.some.injEq]
    have hrest : rest.length % 2 = 0 := by
      simp only [List.length_cons] at heven
      omega
    rw [map_ok_iff]
    constructor
    · rintro ⟨behind, hbehind, rfl⟩
      exact .cons ((hpair _).mpr rfl) ((ih hrest).mp hbehind)
    · intro h
      cases h with
      | cons hfirst hbehind =>
        obtain rfl := (hpair _).mp hfirst
        exact ⟨_, (ih hrest).mpr hbehind, rfl⟩
  | case3 text index hshort =>
    match text with
    | [] => exact ⟨fun h ↦ by cases h; exact .nil, fun h ↦ by cases h; rfl⟩
    | [_] => cases heven
    | a :: b :: rest => exact absurd rfl (hshort a b rest)

/-- A text is read just when its characters that count are numerals of bytes. -/
theorem read_eq_ok_iff :
    read text = .ok bytes ↔ Paired IsNumeralPair (significant text) bytes := by
  unfold read
  dsimp only
  by_cases hforeign : ((significant text).any fun c => 0x7f < c.toNat) = true
  · rw [if_pos hforeign]
    refine ⟨nofun, fun h ↦ ?_⟩
    obtain ⟨c, hc, hlarge⟩ := List.any_eq_true.mp hforeign
    have hascii := h.forall_mem (p := fun c ↦ c.toNat < 0x80)
      (fun _ _ _ ↦ IsNumeralPair.toNat_lt) c hc
    have := of_decide_eq_true hlarge
    omega
  · rw [if_neg hforeign]
    by_cases hodd : (significant text).length % 2 = 1
    · rw [if_pos hodd]
      refine ⟨nofun, fun h ↦ ?_⟩
      have := h.length_eq
      omega
    · rw [if_neg hodd]
      exact readPairs_eq_ok_iff 0 (by omega)

/-! ### What remains of a text -/

theorem dropMarks_stripped (text : List Char) :
    (∃ marks, text = (List.replicate marks ['0', 'x']).flatten ++ dropMarks text) ∧
      ¬ ['0', 'x'] <+: dropMarks text := by
  fun_induction dropMarks text with
  | case1 rest ih =>
    obtain ⟨⟨marks, hmarks⟩, hprefix⟩ := ih
    refine ⟨⟨marks + 1, ?_⟩, hprefix⟩
    rw [List.replicate_succ, List.flatten_cons, List.append_assoc, ← hmarks]
    rfl
  | case2 text hother =>
    refine ⟨⟨0, rfl⟩, ?_⟩
    rintro ⟨rest, rfl⟩
    exact hother rest rfl

theorem dropMarks_append (marks : Nat) (h : ¬ ['0', 'x'] <+: rest) :
    dropMarks ((List.replicate marks ['0', 'x']).flatten ++ rest) = rest := by
  induction marks with
  | zero =>
    rw [List.replicate_zero, List.flatten_nil, List.nil_append]
    unfold dropMarks
    split
    · exact absurd (List.prefix_append ['0', 'x'] _) h
    · rfl
  | succ marks ih =>
    rw [List.replicate_succ, List.flatten_cons, List.append_assoc]
    exact ih

theorem stripped_iff : Stripped text rest ↔ significant text = rest := by
  unfold Stripped significant
  constructor
  · rintro ⟨marks, hmarks, hprefix⟩
    rw [hmarks, dropMarks_append marks hprefix]
  · rintro rfl
    obtain ⟨⟨marks, hmarks⟩, hprefix⟩ := dropMarks_stripped (text.filter (!isBlank ·))
    exact ⟨marks, hmarks, hprefix⟩

theorem plus_mem_iff_of_stripped (h : Stripped text rest) : '+' ∈ rest ↔ '+' ∈ text := by
  obtain ⟨marks, hmarks, -⟩ := h
  have hfilter : '+' ∈ text.filter (!isBlank ·) ↔ '+' ∈ text := by
    rw [List.mem_filter]
    exact and_iff_left (by decide)
  rw [← hfilter, hmarks, List.mem_append]
  refine (or_iff_right fun hmark ↦ ?_).symm
  obtain ⟨mark, hreplicate, hplus⟩ := List.mem_flatten.mp hmark
  rw [(List.mem_replicate.mp hreplicate).2] at hplus
  exact absurd hplus (by decide)

/-! ### Bytes that are shown -/

theorem filter_byte (b : UInt8) : (byte b).filter (!isBlank ·) = byte b := by
  obtain ⟨high, low, hbyte, hhigh, hlow⟩ := byte_eq_pair b
  rw [hbyte]
  simp [hhigh.not_isBlank, hlow.not_isBlank]

theorem filter_spaced (bytes : List UInt8) :
    (spaced bytes).toList.filter (!isBlank ·) = bytes.flatMap byte := by
  have hblank : [' '].filter (!isBlank ·) = [] := by decide
  unfold spaced
  induction bytes with
  | nil => rfl
  | cons b rest ih =>
    cases rest with
    | nil => simp [filter_byte]
    | cons next rest =>
      rw [List.map_cons] at ih
      rw [List.map_cons, List.map_cons, String.intercalate_cons_cons, String.toList_append,
        String.toList_append, List.filter_append, List.filter_append, ih, String.toList_ofList,
        filter_byte, List.flatMap_cons, List.flatMap_cons]
      simp [hblank]

theorem paired_flatMap_byte (bytes : List UInt8) :
    Paired IsDigitPair (bytes.flatMap byte) bytes := by
  induction bytes with
  | nil => exact .nil
  | cons b rest ih =>
    obtain ⟨high, low, hbyte, hhigh, hlow⟩ := byte_eq_pair b
    rw [List.flatMap_cons, hbyte]
    exact .cons ⟨_, _, hhigh, hlow, (Nat.div_add_mod b.toNat 16).symm⟩ ih

/-- Bytes that are shown in hexadecimal have no marks before them. -/
theorem stripped_spaced (bytes : List UInt8) :
    Stripped (spaced bytes).toList (bytes.flatMap byte) := by
  refine ⟨0, filter_spaced bytes, fun hmark ↦ ?_⟩
  have hdigits := (exists_paired_digits_iff.mp ⟨bytes, paired_flatMap_byte bytes⟩).2
  obtain ⟨n, hx⟩ := hdigits 'x' (hmark.mem (by decide))
  exact not_isDigitOf_x n hx

/-- A text is read as the bytes whose numerals it holds, two characters for each. It is hexadecimal
just when it is read and holds no plus sign; and what is shown in hexadecimal is read back. -/
theorem read_exact (text : List Char) (bytes : List UInt8) :
    (read text = .ok bytes ↔ ∃ rest, Stripped text rest ∧ Paired IsNumeralPair rest bytes) ∧
      ((∃ rest, Stripped text rest ∧ Paired IsDigitPair rest bytes) ↔
        read text = .ok bytes ∧ '+' ∉ text) ∧
      ((∃ rest, Stripped text rest ∧ rest.length % 2 = 0 ∧ ∀ c ∈ rest, ∃ n, IsDigitOf c n) ↔
        (∃ found, read text = .ok found) ∧ '+' ∉ text) ∧
      read (spaced bytes).toList = .ok bytes := by
  have hstripped : Stripped text (significant text) := stripped_iff.mpr rfl
  have honly : ∀ {p : List Char → Prop}, (∃ rest, Stripped text rest ∧ p rest) ↔
      p (significant text) := by
    simp only [stripped_iff, exists_eq_left', implies_true]
  have hdigits : ∀ bytes, Paired IsDigitPair (significant text) bytes ↔
      read text = .ok bytes ∧ '+' ∉ text := fun bytes ↦ by
    rw [paired_digits_iff, ← read_eq_ok_iff, plus_mem_iff_of_stripped hstripped]
  rw [honly, honly, honly, ← exists_paired_digits_iff]
  refine ⟨read_eq_ok_iff, hdigits bytes, ?_, ?_⟩
  · rw [exists_congr hdigits, exists_and_right]
  · have hshown := paired_digits_iff.mp (paired_flatMap_byte bytes)
    rw [read_eq_ok_iff, stripped_iff.mp (stripped_spaced bytes)]
    exact hshown.1

/-- A plus sign before a digit is read as the digit, though it is not hexadecimal. -/
theorem read_signed_digit :
    read "+7".toList = .ok [7] ∧
      ¬ ∃ rest, Stripped "+7".toList rest ∧ Paired IsDigitPair rest [7] := by
  refine ⟨rfl, ?_⟩
  rintro ⟨rest, hstripped, hpaired⟩
  have hplus : '+' ∉ rest := (paired_digits_iff.mp hpaired).2
  exact hplus ((plus_mem_iff_of_stripped hstripped).mpr (by decide))

end HexBytes

end TypeLang.Text
