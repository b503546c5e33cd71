import TypeLang.Proofs.Message.Measurement
import TypeLang.Proofs.Wire.Confinement
import TypeLang.Proofs.Wire.Window

/-!
Byte strings written over the bytes of a buffer. A writer puts down the mark, the data and zeros up
to the next multiple of four, or leaves the buffer as it is, and a reader finds the data again. A
reader also finds data that a writer would not have put down so; `ByteString.isCanonical_iff` tells
by the bytes at the place which data that is. All is put together in
`ByteString.write_pads_and_reads_back`.
-/

set_option autoImplicit false
set_option relaxedAutoImplicit false

namespace TypeLang.Wire

variable {buffer bytes : ByteArray} {pos i n : Nat}

theorem Stands.getElem?_add (h : Stands bytes buffer pos) (hi : i < bytes.size) :
    buffer.data[pos + i]? = bytes.data[i]? := by
  have hbyte := getElem?_extract buffer pos bytes.size i
  rw [h.2, if_pos hi] at hbyte
  exact hbyte.symm

theorem eq_zeros_iff : bytes = zeros bytes.size ↔ ∀ i < bytes.size, bytes.data[i]? = some 0 := by
  have hzeros : ∀ i < bytes.size, (zeros bytes.size).data[i]? = some 0 := by
    intro i hi
    show (Array.replicate bytes.size 0)[i]? = some 0
    rw [Array.getElem?_replicate, if_pos hi]
  constructor
  · intro h i hi
    rw [h]
    exact hzeros i hi
  · intro h
    apply ByteArray.ext
    apply Array.ext_getElem?
    intro i
    by_cases hi : i < bytes.size
    · rw [h i hi, hzeros i hi]
    · rw [Array.getElem?_eq_none (Nat.not_lt.mp hi), Array.getElem?_eq_none]
      show (zeros bytes.size).size ≤ i
      rw [ByteString.size_zeros]
      exact Nat.not_lt.mp hi

/-- What is put down within a buffer stands there afterwards. -/
theorem Emission.stands_apply {e : Emission} {offset : Nat} (h : e.Within buffer.size offset) :
    Stands e.bytes (e.apply buffer offset) offset := by
  have hsame : SameBytes e.bytes (e.apply buffer offset) 0 offset e.bytes.size := by
    intro i hi
    rw [getElem?_apply h, if_pos (by omega), Nat.zero_add, Nat.add_sub_cancel_left]
  refine ⟨by rw [size_apply h]; exact h, ?_⟩
  rw [SameBytes.iff_extract_eq.mp hsame, Nat.zero_add, ByteArray.extract_zero_size]

namespace ByteString

variable {data : ByteArray} {offset : Nat}

/-! ### Lengths -/

theorem four_dvd_roundUp (n : Nat) : 4 ∣ roundUp n := Nat.dvd_mul_left 4 _

/-- Nothing between a number and the multiple of four it is rounded up to is a multiple of four. -/
theorem roundUp_le {m : Nat} (hm : 4 ∣ m) (hn : n ≤ m) : roundUp n ≤ m := by
  unfold roundUp
  omega

theorem Form.size_le_of_isLong_eq_false {f : Form} (h : f.isLong = false) :
    f.data.size ≤ shortLimit := by
  have hfits := f.data_fits
  rwa [h, if_neg Bool.false_ne_true] at hfits

theorem markLength_le_formMarkLength (f : Form) :
    markLength f.data.size ≤ formMarkLength f.isLong := by
  unfold markLength formMarkLength
  cases hlong : f.isLong with
  | true => split <;> decide
  | false =>
    rw [if_pos (Form.size_le_of_isLong_eq_false hlong)]
    exact Nat.le_refl 1

theorem Form.IsCanonical.formMarkLength_eq {f : Form} (h : f.IsCanonical) :
    formMarkLength f.isLong = markLength f.data.size := by
  unfold markLength
  split
  · rw [h.1 ‹_›]
    rfl
  · cases hlong : f.isLong with
    | true => rfl
    | false => exact absurd (size_le_of_isLong_eq_false hlong) ‹_›

/-- No form of some data is shorter than the one a writer puts down. -/
theorem encodedLength_le (f : Form) : encodedLength f.data.size ≤ f.bytes.size := by
  have hmark := markLength_le_formMarkLength f
  have hround := le_roundUp (formMarkLength f.isLong + f.data.size)
  rw [f.size_bytes]
  exact roundUp_le (four_dvd_roundUp _) (by omega)

/-! ### Canonical form, by the bytes at a place -/

/-- The mark at a place is short if it can be, and the bytes from the data at that place up to the
`n`-th are zero. -/
def CanonicalAt (buffer : ByteArray) (pos : Nat) (data : ByteArray) (n : Nat) : Prop :=
  ∃ mark, readMark buffer pos = .ok (mark, data.size) ∧ (data.size ≤ shortLimit → mark = 1) ∧
    ∀ i, pos + mark + data.size ≤ i → i < pos + n → buffer.data[i]? = some 0

theorem formMarkLength_eq_one_iff {isLong : Bool} : formMarkLength isLong = 1 ↔ isLong = false := by
  cases isLong <;> simp [formMarkLength]

namespace Form

variable {f : Form}

theorem padding_eq_zeros_iff (h : Stands f.bytes buffer pos) :
    f.padding = zeros f.padding.size ↔
      ∀ i, pos + formMarkLength f.isLong + f.data.size ≤ i → i < pos + f.bytes.size →
        buffer.data[i]? = some 0 := by
  have hpadding := (Stands.append_iff.mp h).2
  rw [ByteArray.size_append, size_formMark, ← Nat.add_assoc] at hpadding
  have hsize : f.bytes.size = formMarkLength f.isLong + f.data.size + f.padding.size := by
    rw [f.size_bytes, f.size_padding]
  rw [eq_zeros_iff]
  constructor
  · intro hzero i hfrom hto
    obtain ⟨j, rfl⟩ := Nat.exists_eq_add_of_le hfrom
    rw [hpadding.getElem?_add (by omega)]
    exact hzero j (by omega)
  · intro hzero j hj
    rw [← hpadding.getElem?_add hj]
    exact hzero _ (by omega) (by omega)

/-- Whether a form is canonical can be told by the bytes where it stands. -/
theorem isCanonical_iff (h : Stands f.bytes buffer pos) :
    f.IsCanonical ↔ CanonicalAt buffer pos f.data f.bytes.size := by
  have hmark := f.readMark_eq_ok h
  unfold IsCanonical CanonicalAt
  rw [padding_eq_zeros_iff h, hmark]
  constructor
  · rintro ⟨hshort, hzero⟩
    exact ⟨_, rfl, fun hle ↦ formMarkLength_eq_one_iff.mpr (hshort hle), hzero⟩
  · rintro ⟨mark, hpair, hshort, hzero⟩
    cases hpair
    exact ⟨fun hle ↦ formMarkLength_eq_one_iff.mp (hshort hle), hzero⟩

end Form

/-! ### Writing -/

/-- Data was written at a place of a buffer: in `n` bytes, as few as the mark and the data ask for,
with zeros behind the data, and nowhere else. -/
structure WrittenAt (buffer after : ByteArray) (offset : Nat) (data : ByteArray) (n : Nat) :
    Prop where
  four_dvd : 4 ∣ n
  le_length : markLength data.size + data.size ≤ n
  length_le : ∀ m, 4 ∣ m → markLength data.size + data.size ≤ m → n ≤ m
  size_eq : after.size = buffer.size
  padding : ∀ i, offset + markLength data.size + data.size ≤ i → i < offset + n →
    after.data[i]? = some 0
  elsewhere : ∀ i, i < offset ∨ offset + n ≤ i → after.data[i]? = buffer.data[i]?
  read_eq : read after offset = .ok (data, n)

theorem writtenAt_of_puts {e : Emission} (hlength : data.size ≤ lengthLimit)
    (hputs : e.Puts (encode data)) (hwithin : e.Within buffer.size offset) :
    WrittenAt buffer (e.apply buffer offset) offset data (encodedLength data.size) := by
  obtain ⟨f, hf, hdata, hcanonical⟩ : ∃ f : Form, f.bytes = encode data ∧ f.data = data ∧
      f.IsCanonical :=
    ⟨canonicalForm data hlength, bytes_canonicalForm data hlength, rfl,
      (Form.bytes_eq_encode_iff _).mp (bytes_canonicalForm data hlength)⟩
  have hstands : Stands f.bytes (e.apply buffer offset) offset := by
    rw [hf, ← hputs.2]
    exact Emission.stands_apply hwithin
  have hsize : f.bytes.size = encodedLength data.size := by rw [hf, size_encode hlength]
  have hbytes : e.bytes.size = encodedLength data.size := by rw [hputs.2, size_encode hlength]
  have hmark := hcanonical.formMarkLength_eq
  rw [hdata] at hmark
  exact
    { four_dvd := four_dvd_roundUp _
      le_length := le_roundUp _
      length_le := fun m hm hle ↦ roundUp_le hm hle
      size_eq := Emission.size_apply hwithin
      padding := by
        have hzero := (Form.padding_eq_zeros_iff hstands).mp hcanonical.2
        rwa [hmark, hdata, hsize] at hzero
      elsewhere := fun i hi ↦ by
        rw [Emission.getElem?_apply hwithin, if_neg (by omega)]
      read_eq := read_eq_ok_iff.mpr ⟨f, hdata, hsize, hstands⟩ }

/-- What a writer of a byte string answers, and the buffer it leaves behind. -/
def writeInto (buffer : ByteArray) (offset : Nat) (data : ByteArray) :
    Except Error Nat × ByteArray :=
  let e := Emission.byteString buffer.size offset data
  (e.outcome, e.apply buffer offset)

theorem writeInto_of_long (hlong : lengthLimit < data.size) :
    writeInto buffer offset data =
      (.error (.invalidState (.longByteString data.size)), buffer) := by
  unfold writeInto Emission.byteString
  rw [if_pos hlong]
  rfl

theorem writeInto_of_short (hlength : data.size ≤ lengthLimit)
    (hshort : buffer.size < offset + encodedLength data.size) :
    writeInto buffer offset data =
      (.error (truncated buffer.size offset (encodedLength data.size)), buffer) := by
  unfold writeInto Emission.byteString Emission.piece
  rw [if_neg (Nat.not_lt.mpr hlength), size_encode hlength, if_neg (Nat.not_le.mpr hshort)]
  rfl

theorem writeInto_of_fits (hlength : data.size ≤ lengthLimit)
    (hfits : offset + encodedLength data.size ≤ buffer.size) :
    ∃ after, writeInto buffer offset data = (.ok (encodedLength data.size), after) ∧
      Stands (encode data) after offset ∧
      WrittenAt buffer after offset data (encodedLength data.size) := by
  have hsize := size_encode hlength
  have hputs : (Emission.byteString buffer.size offset data).Puts (encode data) :=
    Emission.byteString_puts_iff.mpr ⟨hlength, rfl, by rw [hsize]; exact hfits⟩
  have hwithin := Emission.within_byteString (Nat.le_of_add_right_le hfits) data
  have hanswer : (Emission.byteString buffer.size offset data).outcome =
      .ok (encodedLength data.size) :=
    Emission.outcome_eq_ok_iff.mpr ⟨_, hputs, hsize⟩
  have hstands := Emission.stands_apply hwithin
  rw [hputs.2] at hstands
  refine ⟨_, Prod.ext hanswer rfl, hstands, ?_⟩
  exact writtenAt_of_puts hlength hputs hwithin

/-- Data that was read is put down as it was just when it was canonical. It always fits. -/
theorem writeInto_of_read {n : Nat} (h : read buffer offset = .ok (data, n)) :
    ∃ after, writeInto buffer offset data = (.ok (encodedLength data.size), after) ∧
      (after.extract offset (offset + n) = buffer.extract offset (offset + n) ↔
        CanonicalAt buffer offset data n) := by
  obtain ⟨f, rfl, rfl, hstands⟩ := read_eq_ok_iff.mp h
  obtain ⟨after, hwrite, hwritten, hat⟩ := writeInto_of_fits f.size_data_le
    (Nat.le_trans (Nat.add_le_add_left (encodedLength_le f) offset) hstands.le_size)
  refine ⟨after, hwrite, ?_⟩
  rw [← Form.isCanonical_iff hstands, ← f.bytes_eq_encode_iff, hstands.2]
  constructor
  · intro hsame
    have hagain : Stands f.bytes after offset :=
      ⟨by rw [hat.size_eq]; exact hstands.le_size, hsame⟩
    -- Both forms are read from one place, so they are equally long.
    have hread := read_eq_ok_iff.mpr ⟨f, rfl, rfl, hagain⟩
    rw [hat.read_eq, ← size_encode f.size_data_le] at hread
    exact hagain.unique hwritten (congrArg Prod.snd (Except.ok.inj hread)).symm
  · intro hbytes
    rw [hbytes]
    exact hwritten.2

/-- A byte string is written whole, with as much padding as it needs and no more, or the buffer
stays as it is. What is written is read back, and what is read is written back if it is
canonical. -/
theorem write_pads_and_reads_back (buffer data : ByteArray) (offset : Nat) :
    (lengthLimit < data.size →
      writeInto buffer offset data =
        (.error (.invalidState (.longByteString data.size)), buffer)) ∧
    (data.size ≤ lengthLimit → buffer.size < offset + encodedLength data.size →
      writeInto buffer offset data =
        (.error (truncated buffer.size offset (encodedLength data.size)), buffer)) ∧
    (data.size ≤ lengthLimit → offset + encodedLength data.size ≤ buffer.size →
      ∃ after, writeInto buffer offset data = (.ok (encodedLength data.size), after) ∧
        WrittenAt buffer after offset data (encodedLength data.size)) ∧
    sizeOf buffer offset = (read buffer offset).map Prod.snd ∧
    ∀ found n, read buffer offset = .ok (found, n) →
      ∃ after, writeInto buffer offset found = (.ok (encodedLength found.size), after) ∧
        (after.extract offset (offset + n) = buffer.extract offset (offset + n) ↔
          CanonicalAt buffer offset found n) := by
  refine ⟨writeInto_of_long, writeInto_of_short, fun hlength hfits ↦ ?_,
    sizeOf_measuresAs.outcome_eq, fun found n h ↦ writeInto_of_read h⟩
  obtain ⟨after, hwrite, -, hat⟩ := writeInto_of_fits hlength hfits
  exact ⟨after, hwrite, hat⟩

/-- One byte of data behind a mark that is longer than it has to be. -/
def spareMark : ByteArray := ⟨#[0xfe, 1, 0, 0, 97, 0, 0, 0]⟩

/-- Data behind a mark that is too long is read, but it is not written back as it was. -/
theorem write_over_spareMark :
    read spareMark 0 = .ok (⟨#[97]⟩, 8) ∧
      ∃ after, writeInto spareMark 0 ⟨#[97]⟩ = (.ok 4, after) ∧ read after 0 = .ok (⟨#[97]⟩, 4) ∧
        after.extract 0 8 ≠ spareMark.extract 0 8 := by
  have hread : read spareMark 0 = .ok (⟨#[97]⟩, 8) := by rfl
  obtain ⟨-, -, hfits, -, hback⟩ := write_pads_and_reads_back spareMark ⟨#[97]⟩ 0
  obtain ⟨after, hwrite, hat⟩ := hfits (by decide) (by decide)
  obtain ⟨_, hagain, hsame⟩ := hback _ _ hread
  obtain rfl := congrArg Prod.snd (hwrite.symm.trans hagain)
  refine ⟨hread, after, hwrite, hat.read_eq, fun heq ↦ ?_⟩
  obtain ⟨mark, hmark, hshort, -⟩ := hsame.mp heq
  have hlong : readMark spareMark 0 = .ok (4, 1) := by rfl
  rw [hlong] at hmark
  cases hmark
  exact absurd (hshort (by decide)) (by decide)

end ByteString

end TypeLang.Wire
