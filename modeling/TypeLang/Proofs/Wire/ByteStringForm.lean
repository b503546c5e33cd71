import TypeLang.Proofs.Wire.Place
import TypeLang.Wire.ByteString

/-!
The forms of byte strings. A `Form` is one way to put down some data: the mark may be long although
the data is short, and the padding may be anything. `read_eq_ok_iff` says that a reader finds just
the forms, and `bytes_eq_encode_iff` which of them a writer puts down.
-/

set_option autoImplicit false
set_option relaxedAutoImplicit false

namespace TypeLang.Wire.ByteString

theorem le_roundUp (n : Nat) : n ≤ roundUp n := by
  unfold roundUp
  omega

/-- The length of a mark in its short or its long form. -/
def formMarkLength (isLong : Bool) : Nat := if isLong then 4 else 1

/-- A mark in its short or its long form. -/
def formMark (isLong : Bool) (length : Nat) : ByteArray :=
  if isLong then encodeNat 1 longMark.toNat ++ encodeNat 3 length else encodeNat 1 length

@[simp] theorem size_formMark (isLong : Bool) (length : Nat) :
    (formMark isLong length).size = formMarkLength isLong := by
  cases isLong <;> simp [formMark, formMarkLength]

/-- Data with a mark that gives its length and with as much padding as the mark asks for. -/
structure Form where
  isLong : Bool
  data : ByteArray
  padding : ByteArray
  data_fits : data.size ≤ if isLong then lengthLimit else shortLimit
  size_padding : formMarkLength isLong + data.size + padding.size =
    roundUp (formMarkLength isLong + data.size)

namespace Form

/-- The bytes of a form. -/
def bytes (f : Form) : ByteArray := formMark f.isLong f.data.size ++ f.data ++ f.padding

/-- Whether the mark is short where it can be and the padding is all zero. -/
def IsCanonical (f : Form) : Prop :=
  (f.data.size ≤ shortLimit → f.isLong = false) ∧ f.padding = zeros f.padding.size

theorem size_bytes (f : Form) :
    f.bytes.size = roundUp (formMarkLength f.isLong + f.data.size) := by
  rw [bytes, ByteArray.size_append, ByteArray.size_append, size_formMark, f.size_padding]

theorem size_data_le (f : Form) : f.data.size ≤ lengthLimit := by
  have h := f.data_fits
  cases hlong : f.isLong <;> simp only [hlong, if_true, Bool.false_eq_true, if_false] at h
  · exact Nat.le_trans h (by decide)
  · exact h

theorem size_bytes_pos (f : Form) : 0 < f.bytes.size := by
  have hround := le_roundUp (formMarkLength f.isLong + f.data.size)
  have hmark : 0 < formMarkLength f.isLong := by cases f.isLong <;> decide
  rw [size_bytes]
  omega

end Form

theorem readMark_eq_ok_iff {buffer : ByteArray} {pos mark length : Nat} :
    readMark buffer pos = .ok (mark, length) ↔
      ∃ isLong : Bool, mark = formMarkLength isLong ∧
        length ≤ (if isLong then lengthLimit else shortLimit) ∧
          Stands (formMark isLong length) buffer pos := by
  unfold readMark
  constructor
  · intro h
    cases hfirst : readNat 1 buffer pos with
    | error e => rw [hfirst] at h; cases h
    | ok first =>
      simp only [hfirst] at h
      obtain ⟨hlt, hstands⟩ := readNat_eq_ok_iff.mp hfirst
      split at h
      · rename_i hlong
        obtain ⟨n, hn, hpair⟩ := map_ok_iff.mp h
        cases hpair
        obtain ⟨hbound, hlength⟩ := readNat_eq_ok_iff.mp hn
        refine ⟨true, rfl, Nat.le_of_lt_succ hbound, ?_⟩
        rw [hlong] at hstands
        exact Stands.append_iff.mpr ⟨hstands, by rw [size_encodeNat]; exact hlength⟩
      · split at h
        · cases h
        · rename_i hlong hreserved
          cases h
          refine ⟨false, rfl, ?_, hstands⟩
          have hmark : longMark.toNat = 254 := rfl
          have hbyte : length < 256 := hlt
          show length ≤ 253
          omega
  · rintro ⟨isLong, rfl, hlength, hstands⟩
    cases isLong with
    | true =>
      obtain ⟨hfirst, hrest⟩ := Stands.append_iff.mp hstands
      rw [size_encodeNat] at hrest
      have hbound : length < Nat.pow 256 3 := Nat.lt_succ_of_le hlength
      rw [readNat_eq_ok_iff.mpr ⟨by decide, hfirst⟩]
      simp only [if_true]
      rw [readNat_eq_ok_iff.mpr ⟨hbound, hrest⟩]
      rfl
    | false =>
      have hbound : length ≤ 253 := hlength
      have hlong : length ≠ longMark.toNat := by
        have hmark : longMark.toNat = 254 := rfl
        omega
      have hreserved : length ≠ 255 := by omega
      have hbyte : length < 256 := by omega
      rw [readNat_eq_ok_iff.mpr ⟨hbyte, hstands⟩]
      simp only [if_neg hlong, if_neg hreserved]
      rfl

theorem Form.readMark_eq_ok (f : Form) {buffer : ByteArray} {pos : Nat}
    (h : Stands f.bytes buffer pos) :
    readMark buffer pos = .ok (formMarkLength f.isLong, f.data.size) :=
  readMark_eq_ok_iff.mpr ⟨f.isLong, rfl, f.data_fits,
    (Stands.append_iff.mp (Stands.append_iff.mp h).1).1⟩

/-- A reader finds the forms of byte strings, and nothing else. -/
theorem read_eq_ok_iff {buffer data : ByteArray} {pos n : Nat} :
    read buffer pos = .ok (data, n) ↔
      ∃ f : Form, f.data = data ∧ f.bytes.size = n ∧ Stands f.bytes buffer pos := by
  unfold read
  constructor
  · intro h
    cases hmark : readMark buffer pos with
    | error e => rw [hmark] at h; cases h
    | ok found =>
      obtain ⟨mark, length⟩ := found
      obtain ⟨isLong, rfl, hlength, hstands⟩ := readMark_eq_ok_iff.mp hmark
      simp only [hmark, ensure] at h
      by_cases hfits : pos + roundUp (formMarkLength isLong + length) ≤ buffer.size
      · rw [if_pos hfits] at h
        have hround := le_roundUp (formMarkLength isLong + length)
        obtain ⟨found, hfound, hsize, hdata⟩ := Stands.exists_of_le buffer
          (pos + formMarkLength isLong) length (by omega)
        obtain ⟨padding, -, hsizePadding, hpadding⟩ := Stands.exists_of_le buffer
          (pos + formMarkLength isLong + length)
          (roundUp (formMarkLength isLong + length) - (formMarkLength isLong + length))
          (by omega)
        rw [hfound] at h
        cases h
        subst hsize
        let f : Form := ⟨isLong, data, padding, hlength, by omega⟩
        refine ⟨f, rfl, f.size_bytes, ?_⟩
        refine Stands.append_iff.mpr ⟨Stands.append_iff.mpr ⟨hstands, ?_⟩, ?_⟩
        · rw [size_formMark]
          exact hdata
        · rw [ByteArray.size_append, size_formMark, ← Nat.add_assoc]
          exact hpadding
      · rw [if_neg hfits] at h
        cases h
  · rintro ⟨f, rfl, rfl, hstands⟩
    have hfits := hstands.le_size
    rw [Form.size_bytes] at hfits
    obtain ⟨hfront, -⟩ := Stands.append_iff.mp hstands
    obtain ⟨-, hdata⟩ := Stands.append_iff.mp hfront
    rw [size_formMark] at hdata
    rw [f.readMark_eq_ok hstands]
    simp only [ensure, if_pos hfits]
    rw [hdata.2, Form.size_bytes]

/-! ### What a writer puts down -/

@[simp] theorem size_zeros (n : Nat) : (zeros n).size = n := Array.size_replicate

/-- The form that a writer puts down. -/
def canonicalForm (data : ByteArray) (h : data.size ≤ lengthLimit) : Form where
  isLong := decide (shortLimit < data.size)
  data := data
  padding := zeros (encodedLength data.size - (markLength data.size + data.size))
  data_fits := by
    by_cases hshort : data.size ≤ shortLimit
    · rw [if_neg (by simpa using hshort)]
      exact hshort
    · rw [if_pos (by simpa using hshort)]
      exact h
  size_padding := by
    have hmark : formMarkLength (decide (shortLimit < data.size)) = markLength data.size := by
      unfold formMarkLength markLength
      by_cases hshort : data.size ≤ shortLimit
      · rw [if_pos hshort, if_neg (by simpa using hshort)]
      · rw [if_neg hshort, if_pos (by simpa using hshort)]
    have hround := le_roundUp (markLength data.size + data.size)
    rw [hmark, size_zeros]
    unfold encodedLength
    omega

theorem bytes_canonicalForm (data : ByteArray) (h : data.size ≤ lengthLimit) :
    (canonicalForm data h).bytes = encode data := by
  have hmark : formMark (decide (shortLimit < data.size)) data.size = encodeMark data.size := by
    unfold formMark encodeMark
    by_cases hshort : data.size ≤ shortLimit
    · rw [if_pos hshort, if_neg (by simpa using hshort)]
    · rw [if_neg hshort, if_pos (by simpa using hshort)]
  show formMark (decide (shortLimit < data.size)) data.size ++ data ++ _ = _
  rw [hmark]
  rfl

theorem size_encode {data : ByteArray} (h : data.size ≤ lengthLimit) :
    (encode data).size = encodedLength data.size := by
  rw [← bytes_canonicalForm data h, Form.size_bytes]
  show roundUp (formMarkLength (decide (shortLimit < data.size)) + data.size) = _
  unfold encodedLength formMarkLength markLength
  by_cases hshort : data.size ≤ shortLimit
  · rw [if_pos hshort, if_neg (by simpa using hshort)]
  · rw [if_neg hshort, if_pos (by simpa using hshort)]

theorem formMarkLength_injective {a b : Bool} (h : formMarkLength a = formMarkLength b) :
    a = b := by
  cases a <;> cases b <;> simp_all [formMarkLength]

/-- A form is what a writer puts down just when it is canonical. -/
theorem Form.bytes_eq_encode_iff (f : Form) : f.bytes = encode f.data ↔ f.IsCanonical := by
  obtain ⟨g, hg⟩ : ∃ g, canonicalForm f.data f.size_data_le = g := ⟨_, rfl⟩
  have hlong : g.isLong = decide (shortLimit < f.data.size) := by rw [← hg]; rfl
  have hdata : g.data = f.data := by rw [← hg]; rfl
  have hzeros : g.padding = zeros g.padding.size := by
    rw [← hg]
    show zeros _ = zeros (zeros _).size
    rw [size_zeros]
  rw [← bytes_canonicalForm f.data f.size_data_le, hg]
  constructor
  · intro h
    -- The mark tells the two forms apart, so both have the same one.
    have hmark := f.readMark_eq_ok (Stands.self f.bytes)
    rw [h, g.readMark_eq_ok (Stands.self g.bytes), hdata] at hmark
    have hsame : g.isLong = f.isLong :=
      formMarkLength_injective (congrArg Prod.fst (Except.ok.inj hmark))
    have hpadding : f.padding = g.padding := by
      unfold bytes at h
      rw [hsame, hdata] at h
      exact (ByteArray.append_right_inj _).mp h
    refine ⟨fun hshort ↦ ?_, by rw [hpadding]; exact hzeros⟩
    rw [← hsame, hlong]
    exact decide_eq_false (Nat.not_lt.mpr hshort)
  · rintro ⟨hshort, hpadding⟩
    have hsame : f.isLong = g.isLong := by
      rw [hlong]
      by_cases hle : f.data.size ≤ shortLimit
      · rw [hshort hle, decide_eq_false (Nat.not_lt.mpr hle)]
      · have hfits := f.data_fits
        cases hform : f.isLong with
        | true => exact (decide_eq_true (Nat.lt_of_not_le hle)).symm
        | false => rw [hform] at hfits; exact absurd hfits hle
    have hsize : f.padding.size = g.padding.size := by
      have hf := f.size_padding
      have hg := g.size_padding
      rw [hdata, ← hsame] at hg
      omega
    unfold bytes
    rw [hpadding, hsize, ← hzeros, hsame, hdata]

end TypeLang.Wire.ByteString
