import TypeLang.Wire.Scalar

/-!
Byte strings. A mark before the data gives its length, in one byte or in four, and zeros behind the
data fill the last group of four bytes, counted from the mark. A reader takes the long mark for
short data as well, and any padding.
-/

set_option autoImplicit false
set_option relaxedAutoImplicit false

namespace TypeLang.Wire.ByteString

/-- The longest data whose length is given in one byte. -/
def shortLimit : Nat := 253

/-- The first byte of a mark that gives the length in the three bytes behind it. -/
def longMark : UInt8 := 0xfe

/-- The longest data whose length can be given at all. -/
def lengthLimit : Nat := 0xffffff

/-- The length of the mark before data of some length. -/
def markLength (length : Nat) : Nat := if length ≤ shortLimit then 1 else 4

/-- The least multiple of four that is not less than a number. -/
def roundUp (n : Nat) : Nat := (n + 3) / 4 * 4

/-- The length of data with its mark and padding. -/
def encodedLength (length : Nat) : Nat := roundUp (markLength length + length)

/-- The length of the mark at a place, and the length of the data behind it. -/
def readMark (buffer : ByteArray) (offset : Nat) : Except Error (Nat × Nat) :=
  match readNat 1 buffer offset with
  | .error e => .error e
  | .ok first =>
    if first = longMark.toNat then
      (readNat 3 buffer (offset + 1)).map fun length => (4, length)
    else if first = 0xff then .error (.malformed offset .reservedMarker)
    else .ok (1, first)

/-- The length of the byte string at a place. -/
def sizeOf (buffer : ByteArray) (offset : Nat) : Except Error Nat :=
  match readMark buffer offset with
  | .error e => .error e
  | .ok (mark, length) => ensure buffer offset (roundUp (mark + length))

/-- The data of the byte string at a place, and the length of the byte string. -/
def read (buffer : ByteArray) (offset : Nat) : Except Error (ByteArray × Nat) :=
  match readMark buffer offset with
  | .error e => .error e
  | .ok (mark, length) =>
    match ensure buffer offset (roundUp (mark + length)) with
    | .error e => .error e
    | .ok size => .ok (buffer.extract (offset + mark) (offset + mark + length), size)

/-- The mark before data of some length. -/
def encodeMark (length : Nat) : ByteArray :=
  if length ≤ shortLimit then encodeNat 1 length
  else encodeNat 1 longMark.toNat ++ encodeNat 3 length

/-- Data with its mark and padding. -/
def encode (data : ByteArray) : ByteArray :=
  encodeMark data.size ++ data ++
    zeros (encodedLength data.size - (markLength data.size + data.size))

end TypeLang.Wire.ByteString
