import TypeLang.Wire.Vectors

/-!
Bytes that stand at a place of a buffer. A reader of fixed width finds a value just when the bytes
of that value stand there (`readUInt32_eq_ok_iff` and its kin), so that reading a value, and the
place it is read from, can be told apart.
-/

set_option autoImplicit false
set_option relaxedAutoImplicit false

namespace TypeLang.Wire

/-- Some bytes stand at a place of a buffer. -/
def Stands (bytes buffer : ByteArray) (pos : Nat) : Prop :=
  pos + bytes.size ≤ buffer.size ∧ buffer.extract pos (pos + bytes.size) = bytes

namespace Stands

variable {bytes a b buffer : ByteArray} {pos n : Nat}

theorem le_size (h : Stands bytes buffer pos) : pos + bytes.size ≤ buffer.size := h.1

theorem self (bytes : ByteArray) : Stands bytes bytes 0 :=
  ⟨by omega, by rw [Nat.zero_add]; exact ByteArray.extract_zero_size⟩

theorem size_extract (h : pos + n ≤ buffer.size) : (buffer.extract pos (pos + n)).size = n := by
  rw [ByteArray.size_extract]
  omega

/-- What is cut out of a buffer stands where it was. -/
theorem extract (h : pos + n ≤ buffer.size) :
    Stands (buffer.extract pos (pos + n)) buffer pos := by
  unfold Stands
  rw [size_extract h]
  exact ⟨h, rfl⟩

theorem exists_of_le (buffer : ByteArray) (pos n : Nat) (h : pos + n ≤ buffer.size) :
    ∃ bytes, buffer.extract pos (pos + n) = bytes ∧ bytes.size = n ∧ Stands bytes buffer pos :=
  ⟨_, rfl, size_extract h, extract h⟩

theorem empty_iff : Stands .empty buffer pos ↔ pos ≤ buffer.size := by
  unfold Stands
  rw [ByteArray.size_empty, Nat.add_zero, ByteArray.extract_same]
  simp

theorem append_iff :
    Stands (a ++ b) buffer pos ↔ Stands a buffer pos ∧ Stands b buffer (pos + a.size) := by
  unfold Stands
  rw [ByteArray.size_append]
  constructor
  · rintro ⟨hle, heq⟩
    have hsplit : buffer.extract pos (pos + a.size) ++
        buffer.extract (pos + a.size) (pos + a.size + b.size) = a ++ b := by
      rw [← ByteArray.extract_eq_extract_append_extract (pos + a.size) (by omega) (by omega),
        Nat.add_assoc]
      exact heq
    have hleft : buffer.extract pos (pos + a.size) = a :=
      ByteArray.append_inj_left hsplit (size_extract (by omega))
    rw [hleft] at hsplit
    exact ⟨⟨by omega, hleft⟩, by omega, (ByteArray.append_right_inj a).mp hsplit⟩
  · rintro ⟨⟨_, ha⟩, hle, hb⟩
    refine ⟨by omega, ?_⟩
    rw [ByteArray.extract_eq_extract_append_extract (pos + a.size) (by omega) (by omega), ha,
      ← Nat.add_assoc, hb]

/-- Bytes of one size at one place are the same. -/
theorem unique (ha : Stands a buffer pos) (hb : Stands b buffer pos) (hsize : a.size = b.size) :
    a = b := by
  rw [← ha.2, ← hb.2, hsize]

end Stands

/-- Bytes that are put together are told apart if it is known where the first ones end. -/
theorem append_eq_append_iff {a b c d : ByteArray} (hsize : a.size = c.size) :
    a ++ b = c ++ d ↔ a = c ∧ b = d := by
  constructor
  · intro happend
    have hfront := ByteArray.append_inj_left happend hsize
    rw [hfront] at happend
    exact ⟨hfront, (ByteArray.append_right_inj c).mp happend⟩
  · rintro ⟨rfl, rfl⟩
    rfl

theorem overwrite_eq {offset : Nat} (buffer bytes : ByteArray) :
    overwrite buffer offset bytes =
      buffer.extract 0 offset ++ bytes ++ buffer.extract (offset + bytes.size) buffer.size := by
  unfold overwrite
  rw [ByteArray.copySlice_eq_append]
  simp

/-- Bytes put down behind what stands at the front of a buffer extend it. -/
theorem Stands.overwrite_append {front buffer : ByteArray} (h : Stands front buffer 0)
    (bytes : ByteArray) : Stands (front ++ bytes) (overwrite buffer front.size bytes) 0 := by
  have hfront : buffer.extract 0 front.size = front := by
    have heq := h.2
    rwa [Nat.zero_add] at heq
  rw [overwrite_eq, hfront]
  exact (append_iff.mp (self _)).1

theorem slice_eq_ok_iff {buffer bytes : ByteArray} {pos n : Nat} :
    slice buffer pos n = .ok bytes ↔ bytes.size = n ∧ Stands bytes buffer pos := by
  unfold slice
  constructor
  · intro h
    split at h
    · rename_i hle
      cases h
      exact ⟨Stands.size_extract hle, Stands.extract hle⟩
    · cases h
  · rintro ⟨rfl, hle, heq⟩
    rw [if_pos hle, heq]

/-! ### Numbers -/

theorem littleEndian_lt (bytes : List UInt8) :
    littleEndian bytes < Nat.pow 256 bytes.length := by
  induction bytes with
  | nil => simp [littleEndian]
  | cons b rest ih =>
    have hb : b.toNat < 256 := b.toNat_lt
    have hcons : littleEndian (b :: rest) = b.toNat + 256 * littleEndian rest := rfl
    have hpow : Nat.pow 256 (rest.length + 1) = 256 * Nat.pow 256 rest.length := Nat.pow_succ'
    rw [hcons, List.length_cons, hpow]
    omega

/-- Bytes are those of the number they stand for. -/
theorem bytesOf_littleEndian (bytes : List UInt8) :
    bytesOf bytes.length (littleEndian bytes) = bytes := by
  induction bytes with
  | nil => rfl
  | cons b rest ih =>
    have hb : b.toNat < 256 := b.toNat_lt
    have hcons : littleEndian (b :: rest) = b.toNat + 256 * littleEndian rest := rfl
    have hhigh : (b.toNat + 256 * littleEndian rest) / 256 = littleEndian rest := by omega
    have hlow : UInt8.ofNat (b.toNat + 256 * littleEndian rest) = b := by
      apply UInt8.toNat_inj.mp
      rw [UInt8.toNat_ofNat']
      omega
    rw [hcons, List.length_cons, bytesOf, hhigh, hlow, ih]

@[simp] theorem size_encodeNat (width n : Nat) : (encodeNat width n).size = width := by
  rw [encodeNat, List.size_toByteArray, bytesOf_length]

/-- A number is read where its bytes stand, and nowhere else. -/
theorem readNat_eq_ok_iff {width n pos : Nat} {buffer : ByteArray} :
    readNat width buffer pos = .ok n ↔
      n < Nat.pow 256 width ∧ Stands (encodeNat width n) buffer pos := by
  unfold readNat
  constructor
  · intro h
    cases hslice : slice buffer pos width with
    | error e => rw [hslice] at h; cases h
    | ok bytes =>
      rw [hslice] at h
      obtain ⟨rfl, hstands⟩ := slice_eq_ok_iff.mp hslice
      cases h
      have hlength : bytes.data.toList.length = bytes.size := by simp
      have hencode : encodeNat bytes.size (littleEndian bytes.data.toList) = bytes := by
        rw [encodeNat, ← hlength, bytesOf_littleEndian]
        apply ByteArray.ext
        simp
      rw [hencode]
      exact ⟨hlength ▸ littleEndian_lt _, hstands⟩
  · rintro ⟨hlt, hstands⟩
    rw [slice_eq_ok_iff.mpr ⟨size_encodeNat width n, hstands⟩]
    show Except.ok (littleEndian (encodeNat width n).data.toList) = _
    rw [encodeNat, List.data_toByteArray, littleEndian_bytesOf]
    exact congrArg Except.ok (Nat.mod_eq_of_lt hlt)

/-! ### Values of fixed width -/

section Words

variable {buffer : ByteArray} {pos : Nat}

theorem map_ok_iff {ε α β : Type} {outcome : Except ε α} {f : α → β} {b : β} :
    outcome.map f = .ok b ↔ ∃ a, outcome = .ok a ∧ f a = b := by
  cases outcome with
  | error e => constructor <;> simp [Except.map]
  | ok a => simp [Except.map]

theorem mapError_ok_iff {ε η α : Type} {outcome : Except ε α} {f : ε → η} {a : α} :
    outcome.mapError f = .ok a ↔ outcome = .ok a := by
  cases outcome with
  | error e => exact ⟨nofun, nofun⟩
  | ok b =>
    exact ⟨fun h ↦ congrArg Except.ok (Except.ok.inj h),
      fun h ↦ congrArg Except.ok (Except.ok.inj h)⟩

theorem ok_of_toOption {ε α : Type} {outcome : Except ε α} {a : α}
    (h : outcome.toOption = some a) : outcome = .ok a := by
  cases outcome with
  | error e => cases h
  | ok b => exact congrArg Except.ok (Option.some.inj h)

theorem readUInt32_eq_ok_iff {x : UInt32} :
    readUInt32 buffer pos = .ok x ↔ Stands (encodeUInt32 x) buffer pos := by
  unfold readUInt32
  rw [map_ok_iff]
  constructor
  · rintro ⟨n, hn, rfl⟩
    obtain ⟨hlt, hstands⟩ := readNat_eq_ok_iff.mp hn
    have hn : (UInt32.ofNat n).toNat = n := by
      rw [UInt32.toNat_ofNat']
      exact Nat.mod_eq_of_lt hlt
    rw [encodeUInt32, hn]
    exact hstands
  · intro h
    exact ⟨x.toNat, readNat_eq_ok_iff.mpr ⟨x.toNat_lt, h⟩, UInt32.ofNat_toNat⟩

theorem readUInt64_eq_ok_iff {x : UInt64} :
    readUInt64 buffer pos = .ok x ↔ Stands (encodeUInt64 x) buffer pos := by
  unfold readUInt64
  rw [map_ok_iff]
  constructor
  · rintro ⟨n, hn, rfl⟩
    obtain ⟨hlt, hstands⟩ := readNat_eq_ok_iff.mp hn
    have hn : (UInt64.ofNat n).toNat = n := by
      rw [UInt64.toNat_ofNat']
      exact Nat.mod_eq_of_lt hlt
    rw [encodeUInt64, hn]
    exact hstands
  · intro h
    exact ⟨x.toNat, readNat_eq_ok_iff.mpr ⟨x.toNat_lt, h⟩, UInt64.ofNat_toNat⟩

theorem readInt32_eq_ok_iff {x : Int32} :
    readInt32 buffer pos = .ok x ↔ Stands (encodeInt32 x) buffer pos := by
  unfold readInt32
  rw [map_ok_iff]
  constructor
  · rintro ⟨bits, hbits, rfl⟩
    exact readUInt32_eq_ok_iff.mp hbits
  · intro h
    exact ⟨x.toUInt32, readUInt32_eq_ok_iff.mpr h, rfl⟩

theorem readInt64_eq_ok_iff {x : Int64} :
    readInt64 buffer pos = .ok x ↔ Stands (encodeInt64 x) buffer pos := by
  unfold readInt64
  rw [map_ok_iff]
  constructor
  · rintro ⟨bits, hbits, rfl⟩
    exact readUInt64_eq_ok_iff.mp hbits
  · intro h
    exact ⟨x.toUInt64, readUInt64_eq_ok_iff.mpr h, rfl⟩

theorem readDouble_eq_ok_iff {x : Double} :
    readDouble buffer pos = .ok x ↔ Stands (encodeDouble x) buffer pos := by
  unfold readDouble
  rw [map_ok_iff]
  constructor
  · rintro ⟨bits, hbits, rfl⟩
    exact readUInt64_eq_ok_iff.mp hbits
  · intro h
    exact ⟨x.bits, readUInt64_eq_ok_iff.mpr h, rfl⟩

@[simp] theorem size_encodeUInt32 (x : UInt32) : (encodeUInt32 x).size = 4 := size_encodeNat 4 _

@[simp] theorem size_encodeInt32 (x : Int32) : (encodeInt32 x).size = 4 := size_encodeNat 4 _

@[simp] theorem size_encodeInt64 (x : Int64) : (encodeInt64 x).size = 8 :=
  size_encodeNat 8 x.toUInt64.toNat

@[simp] theorem size_encodeDouble (x : Double) : (encodeDouble x).size = 8 :=
  size_encodeNat 8 x.bits.toNat

@[simp] theorem size_encodeBool (b : Bool) : (encodeBool b).size = 4 := size_encodeNat 4 _

@[simp] theorem size_encodeWord {width : Nat} (x : Vector UInt8 width) :
    (encodeWord x).size = width := x.size_toArray

/-- The large integer that some bytes are. Bytes that are missing count as zero. -/
def wordOf (width : Nat) (bytes : ByteArray) : Vector UInt8 width :=
  Vector.ofFn fun i => bytes.data[i.val]?.getD 0

theorem encodeWord_wordOf {width : Nat} {bytes : ByteArray} (h : bytes.size = width) :
    encodeWord (wordOf width bytes) = bytes := by
  apply ByteArray.ext
  apply Array.ext
  · show (wordOf width bytes).toArray.size = bytes.data.size
    rw [Vector.size_toArray]
    exact h.symm
  · intro i hi hbytes
    have hbyte : (encodeWord (wordOf width bytes)).data[i] = bytes.data[i]?.getD 0 := by
      simp [encodeWord, wordOf]
    rw [hbyte, Array.getElem?_eq_getElem hbytes, Option.getD_some]

theorem wordOf_encodeWord {width : Nat} (x : Vector UInt8 width) :
    wordOf width (encodeWord x) = x := by
  ext i hi
  simp [encodeWord, wordOf]

theorem readWord_eq_ok_iff {width : Nat} {x : Vector UInt8 width} :
    readWord width buffer pos = .ok x ↔ Stands (encodeWord x) buffer pos := by
  have hread : readWord width buffer pos = (slice buffer pos width).map (wordOf width) := rfl
  rw [hread, map_ok_iff]
  constructor
  · rintro ⟨bytes, hslice, rfl⟩
    obtain ⟨hsize, hstands⟩ := slice_eq_ok_iff.mp hslice
    rw [encodeWord_wordOf hsize]
    exact hstands
  · intro h
    exact ⟨encodeWord x, slice_eq_ok_iff.mpr ⟨size_encodeWord x, h⟩, wordOf_encodeWord x⟩

theorem readBool_eq_ok_iff {b : Bool} :
    readBool buffer pos = .ok b ↔ Stands (encodeBool b) buffer pos := by
  unfold readBool encodeBool
  rw [← readUInt32_eq_ok_iff]
  cases readUInt32 buffer pos with
  | error e => simp
  | ok tag =>
    have hne : trueTag ≠ falseTag := by decide
    by_cases htrue : tag = trueTag
    · cases b <;> simp [htrue, boolTag, hne]
    · by_cases hfalse : tag = falseTag
      · cases b <;> simp [hfalse, boolTag, hne.symm]
      · cases b <;> simp [htrue, hfalse, boolTag]

end Words

/-! ### Vectors -/

/-- What stands before the elements of a vector. -/
def Vectors.header (boxed : Bool) (count : Nat) : ByteArray :=
  (if boxed then encodeUInt32 Vectors.tag else .empty) ++ encodeNat 4 count

@[simp] theorem Vectors.size_header (boxed : Bool) (count : Nat) :
    (Vectors.header boxed count).size = Vectors.headerLength boxed := by
  cases boxed <;> simp [Vectors.header, Vectors.headerLength]

theorem Vectors.header_injective {boxed : Bool} {m n : Nat} (hm : m < UInt32.size)
    (hn : n < UInt32.size)
    (h : Vectors.header boxed m = Vectors.header boxed n) : m = n := by
  have hcount : encodeNat 4 m = encodeNat 4 n := (ByteArray.append_right_inj _).mp h
  have hread := readNat_eq_ok_iff.mpr ⟨hm, Stands.self (encodeNat 4 m)⟩
  rw [hcount, readNat_eq_ok_iff.mpr ⟨hn, Stands.self (encodeNat 4 n)⟩] at hread
  exact (Except.ok.inj hread).symm

/-- Before a vector that starts within the buffer the count is found without an overflow. -/
theorem Vectors.readHeader_of_le {buffer : ByteArray} {pos : Nat} (h : pos ≤ buffer.size)
    (boxed : Bool) :
    Vectors.readHeader buffer pos boxed =
      match Vectors.checkTag buffer pos boxed with
      | .error e => .error e
      | .ok () => (readNat 4 buffer (pos + (Vectors.headerLength boxed - 4))).map fun count =>
        (count, Vectors.headerLength boxed) := by
  unfold Vectors.readHeader
  rw [advance_of_le h]
  cases boxed <;> rfl

theorem Vectors.le_size_of_readHeader {buffer : ByteArray} {pos : Nat} {boxed : Bool}
    {found : Nat × Nat} (h : Vectors.readHeader buffer pos boxed = .ok found) :
    pos ≤ buffer.size := by
  unfold Vectors.readHeader at h
  cases htag : Vectors.checkTag buffer pos boxed with
  | error e => rw [htag] at h; cases h
  | ok u =>
    rw [htag] at h
    dsimp only at h
    cases hbehind : advance buffer.size pos (Vectors.headerLength boxed) with
    | error e => rw [hbehind] at h; cases h
    | ok behind =>
      rw [hbehind] at h
      obtain ⟨count, hcount, -⟩ := map_ok_iff.mp h
      have hstands := (readNat_eq_ok_iff.mp hcount).2.le_size
      have hsum := eq_add_of_advance hbehind
      rw [size_encodeNat] at hstands
      cases boxed <;> simp only [Vectors.headerLength] at hsum <;> omega

theorem Vectors.readHeader_eq_ok_iff {buffer : ByteArray} {pos count size : Nat} {boxed : Bool} :
    Vectors.readHeader buffer pos boxed = .ok (count, size) ↔
      size = Vectors.headerLength boxed ∧ count < UInt32.size ∧
        Stands (Vectors.header boxed count) buffer pos := by
  by_cases hle : pos ≤ buffer.size
  case neg =>
    refine ⟨fun h ↦ absurd (le_size_of_readHeader h) hle, fun ⟨_, _, hstands⟩ ↦ ?_⟩
    exact absurd (Nat.le_of_add_right_le hstands.le_size) hle
  rw [readHeader_of_le hle]
  unfold Vectors.checkTag Vectors.header
  cases boxed with
  | false =>
    simp only [Bool.false_eq_true, if_false, ByteArray.empty_append, Vectors.headerLength,
      map_ok_iff, Prod.mk.injEq, Nat.sub_self, Nat.add_zero]
    constructor
    · rintro ⟨n, hn, rfl, rfl⟩
      exact ⟨rfl, readNat_eq_ok_iff.mp hn⟩
    · rintro ⟨rfl, hcount⟩
      exact ⟨count, readNat_eq_ok_iff.mpr hcount, rfl, rfl⟩
  | true =>
    simp only [if_true, Vectors.headerLength, Stands.append_iff, size_encodeUInt32]
    rw [← readUInt32_eq_ok_iff]
    cases htag : readUInt32 buffer pos with
    | error e => simp
    | ok found =>
      by_cases hfound : found = Vectors.tag
      · simp only [hfound, if_true, map_ok_iff, Prod.mk.injEq, true_and]
        constructor
        · rintro ⟨n, hn, rfl, rfl⟩
          exact ⟨rfl, readNat_eq_ok_iff.mp hn⟩
        · rintro ⟨rfl, hcount⟩
          exact ⟨count, readNat_eq_ok_iff.mpr hcount, rfl, rfl⟩
      · simp [hfound]

end TypeLang.Wire
