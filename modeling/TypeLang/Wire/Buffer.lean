import TypeLang.Error

/-!
Places in a buffer. All reading goes through `slice` and all writing through `overwrite`, and
neither reaches beyond the buffer. Numbers stand with their least significant byte first.
-/

set_option autoImplicit false
set_option relaxedAutoImplicit false

namespace TypeLang.Wire

/-- The fault that a buffer of some size does not reach to the end of a place. -/
def truncated (size offset length : Nat) : Error := .truncated offset length (size - offset)

/-- The bytes at a place. -/
def slice (buffer : ByteArray) (offset length : Nat) : Except Error ByteArray :=
  if offset + length ≤ buffer.size then .ok (buffer.extract offset (offset + length))
  else .error (truncated buffer.size offset length)

/-- Checks that a place lies within the buffer, and gives its length. -/
def ensure (buffer : ByteArray) (offset length : Nat) : Except Error Nat :=
  if offset + length ≤ buffer.size then .ok length
  else .error (truncated buffer.size offset length)

/-- The number of places that can be named. No buffer reaches half as far. -/
def placeLimit : Nat := Nat.pow 2 64

/-- The place some bytes behind another one, for a buffer of some size. The sum overflows if that
place cannot be named, which takes a place beyond the buffer to start from. -/
def advance (size offset length : Nat) : Except Error Nat :=
  if size < offset ∧ placeLimit ≤ offset + length then .error .overflow
  else .ok (offset + length)

theorem advance_of_le {size offset : Nat} (h : offset ≤ size) (length : Nat) :
    advance size offset length = .ok (offset + length) :=
  if_neg fun hbeyond => Nat.not_lt.mpr h hbeyond.1

theorem eq_add_of_advance {size offset length behind : Nat}
    (h : advance size offset length = .ok behind) : behind = offset + length := by
  unfold advance at h
  split at h <;> cases h
  rfl

theorem lt_of_advance_eq_error {size offset length : Nat} {e : Error}
    (h : advance size offset length = .error e) : size < offset :=
  Nat.not_le.mp fun hle => by rw [advance_of_le hle] at h; cases h

theorem ensure_eq_slice (buffer : ByteArray) (offset length : Nat) :
    ensure buffer offset length = (slice buffer offset length).map fun _ => length := by
  unfold ensure slice
  split <;> rfl

/-- The number that bytes stand for. -/
def littleEndian (bytes : List UInt8) : Nat := bytes.foldr (fun b n => b.toNat + 256 * n) 0

/-- The lowest `width` bytes of a number. -/
def bytesOf : Nat → Nat → List UInt8
  | 0, _ => []
  | width + 1, n => UInt8.ofNat n :: bytesOf width (n / 256)

theorem bytesOf_length (width n : Nat) : (bytesOf width n).length = width := by
  induction width generalizing n with
  | zero => rfl
  | succ width ih => simp [bytesOf, ih]

theorem littleEndian_bytesOf (width n : Nat) :
    littleEndian (bytesOf width n) = n % Nat.pow 256 width := by
  induction width generalizing n with
  | zero => simp [bytesOf, littleEndian, Nat.mod_one]
  | succ width ih =>
    have hstep : littleEndian (bytesOf (width + 1) n) =
        n % 256 + 256 * littleEndian (bytesOf width (n / 256)) := by
      simp [bytesOf, littleEndian]
    rw [hstep, ih, Nat.pow_eq, Nat.pow_eq, Nat.pow_succ', Nat.mod_mul]

/-- The number of `width` bytes at a place. -/
def readNat (width : Nat) (buffer : ByteArray) (offset : Nat) : Except Error Nat :=
  (slice buffer offset width).map fun bytes => littleEndian bytes.data.toList

/-- The `width` bytes of a number. -/
def encodeNat (width n : Nat) : ByteArray := (bytesOf width n).toByteArray

/-- A buffer with bytes put over those at a place. -/
def overwrite (buffer : ByteArray) (offset : Nat) (bytes : ByteArray) : ByteArray :=
  bytes.copySlice 0 buffer offset bytes.size

/-- Zero bytes. -/
def zeros (length : Nat) : ByteArray := ⟨Array.replicate length 0⟩

end TypeLang.Wire
