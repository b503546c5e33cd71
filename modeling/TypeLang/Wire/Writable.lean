import TypeLang.Wire.Emission

/-!
Types whose values can be written, and vectors of them.
-/

set_option autoImplicit false
set_option relaxedAutoImplicit false

namespace TypeLang.Wire

/-- A type whose values have a length known in advance, and can be put down at a place of a
buffer of limited size. -/
class Writable (α : Type) where
  encodedLength : α → Nat
  emit : Nat → Nat → α → Emission

/-- A type whose values are put down in one piece. -/
abbrev Writable.ofPiece {α : Type} (length : α → Nat) (bytes : α → ByteArray) : Writable α where
  encodedLength := length
  emit limit offset a := .piece limit offset (bytes a)

instance : Writable UInt32 := .ofPiece (fun _ => 4) encodeUInt32

instance : Writable Int32 := .ofPiece (fun _ => 4) encodeInt32

instance : Writable Int64 := .ofPiece (fun _ => 8) encodeInt64

instance : Writable Double := .ofPiece (fun _ => 8) encodeDouble

instance : Writable Bool := .ofPiece (fun _ => 4) encodeBool

instance {width : Nat} : Writable (Vector UInt8 width) := .ofPiece (fun _ => width) encodeWord

instance : Writable ByteArray where
  encodedLength data := ByteString.encodedLength data.size
  emit := Emission.byteString

instance : Writable String where
  encodedLength text := ByteString.encodedLength text.utf8ByteSize
  emit limit offset text := .byteString limit offset text.toUTF8

/-- Bytes that are put down as they are. -/
structure Raw where
  bytes : ByteArray

instance : Writable Raw := .ofPiece (fun raw => raw.bytes.size) Raw.bytes

variable {α : Type} [Writable α]

/-- The length of a vector of values. -/
def vectorLength (items : List α) (boxed : Bool) : Nat :=
  items.foldl (fun n item => n + Writable.encodedLength item) (Vectors.headerLength boxed)

/-- Puts down values behind what is put down already. -/
def emitItems (limit offset : Nat) (done : Emission) (items : List α) : Emission :=
  items.foldl
    (fun e item => e.andThen fun n => Writable.emit limit (offset + n) item) done

/-- Puts down a vector of values. -/
def emitVector (limit offset : Nat) (items : List α) (boxed : Bool) : Emission :=
  if UInt32.size ≤ items.length then .refuse (.longVector items.length)
  else emitItems limit offset (.vectorHeader limit offset boxed items.length) items

/-- A vector of values as bytes of its own. -/
def buildVector (items : List α) (boxed : Bool) : Except Error ByteArray :=
  let e := emitVector (vectorLength items boxed) 0 items boxed
  e.outcome.map fun _ => e.bytes

/-- A byte string as bytes of its own. -/
def buildBytes (data : ByteArray) : Except Error ByteArray :=
  let e := Emission.byteString (ByteString.encodedLength data.size) 0 data
  e.outcome.map fun _ => e.bytes

end TypeLang.Wire
