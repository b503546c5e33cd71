import TypeLang.Wire.Vectors
import TypeLang.Wire.ByteString

/-!
Types with a wire form of their own, and views of vectors of them. A view keeps the bytes of a whole
vector; its elements are measured when it is made and read when they are asked for.
-/

set_option autoImplicit false
set_option relaxedAutoImplicit false

namespace TypeLang.Wire

/-- A type whose values can be measured and read at a place of a buffer. -/
class Readable (α : Type) where
  sizeOf : ByteArray → Nat → Except Error Nat
  read : ByteArray → Nat → Except Error (α × Nat)

/-- A type whose values also have a form without a tag. -/
class BareReadable (α : Type) where
  sizeOf : ByteArray → Nat → Except Error Nat
  read : ByteArray → Nat → Except Error (α × Nat)

/-- A value in its form without a tag. -/
structure Bare (α : Type) where
  value : α

instance {α : Type} [BareReadable α] : Readable (Bare α) where
  sizeOf := BareReadable.sizeOf α
  read buffer offset :=
    (BareReadable.read buffer offset).map fun ((a : α), size) => (⟨a⟩, size)

/-- A type whose values all have the same width. -/
abbrev Readable.ofWidth {α : Type} (width : Nat) (read : ByteArray → Nat → Except Error α) :
    Readable α where
  sizeOf buffer offset := ensure buffer offset width
  read buffer offset := (read buffer offset).map fun a => (a, width)

instance : Readable UInt32 := .ofWidth 4 readUInt32

instance : Readable Int32 := .ofWidth 4 readInt32

instance : Readable Int64 := .ofWidth 8 readInt64

instance : Readable Double := .ofWidth 8 readDouble

instance {width : Nat} : Readable (Vector UInt8 width) := .ofWidth width (readWord width)

instance : Readable Bool where
  sizeOf buffer offset := (readBool buffer offset).map fun _ => 4
  read buffer offset := (readBool buffer offset).map fun b => (b, 4)

instance : Readable ByteArray where
  sizeOf := ByteString.sizeOf
  read := ByteString.read

/-- A vector of values of one type, as its bytes. -/
structure VectorView (α : Type) where
  bytes : ByteArray
  count : Nat
  header : Nat

namespace VectorView

variable {α : Type}

/-- The length of the vector at a place. -/
def sizeOf (α : Type) [Readable α] (buffer : ByteArray) (offset : Nat) (boxed : Bool) :
    Except Error Nat :=
  (Vectors.sizeOf (fun pos => .lift (Readable.sizeOf α buffer pos)) buffer offset
    boxed).outcome

/-- How many elements there are behind those counted already, and where they end. -/
def countItems (size : Nat → Except Error Nat) (counted : Nat) :
    Nat → Nat → Except Error (Nat × Nat)
  | 0, pos => .ok (counted, pos)
  | declared + 1, pos =>
    match size pos with
    | .error e => .error e
    | .ok 0 => .ok (counted + 1, pos)
    | .ok length => countItems size (counted + 1) declared (pos + length)

/-- The vector at a place and its length. Elements without bytes count once together. -/
def read [Readable α] (buffer : ByteArray) (offset : Nat) (boxed : Bool) :
    Except Error (VectorView α × Nat) :=
  match Vectors.readHeader buffer offset boxed with
  | .error e => .error e
  | .ok (declared, header) =>
    (countItems (Readable.sizeOf α buffer) 0 declared (offset + header)).map
      fun (count, stop) => (⟨buffer.extract offset stop, count, header⟩, stop - offset)

/-- Elements that start at a place, behind those in `done`, up to the first that cannot be read. -/
def itemsAt [Readable α] (bytes : ByteArray) (done : Array (Except Error α)) :
    Nat → Nat → Array (Except Error α)
  | 0, _ => done
  | remaining + 1, pos =>
    match Readable.read bytes pos with
    | .error e => done.push (.error e)
    | .ok (item, 0) => done.push (.ok item)
    | .ok (item, length) => itemsAt bytes (done.push (.ok item)) remaining (pos + length)

/-- The elements of a vector, up to the first that cannot be read. -/
def items [Readable α] (v : VectorView α) : List (Except Error α) :=
  (itemsAt v.bytes #[] v.count v.header).toList

/-- The elements of a vector, if all can be read. -/
def toList [Readable α] (v : VectorView α) : Except Error (List α) := v.items.mapM id

/-- Whether a vector has no elements. -/
def isEmpty (v : VectorView α) : Bool := v.count == 0

/-- How diagnostics show a vector that is not read. -/
def diagnostic (v : VectorView α) : String :=
  "VectorView \x7b count: " ++ toString v.count ++ ", bytes: " ++ toString v.bytes.size ++
    " \x7d"

end VectorView

instance {α : Type} [Readable α] : Readable (VectorView α) where
  sizeOf buffer offset := VectorView.sizeOf α buffer offset true
  read buffer offset := VectorView.read buffer offset true

instance {α : Type} [Readable α] : BareReadable (VectorView α) where
  sizeOf buffer offset := VectorView.sizeOf α buffer offset false
  read buffer offset := VectorView.read buffer offset false

end TypeLang.Wire
