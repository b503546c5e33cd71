import TypeLang.Schema.Reference
import TypeLang.Wire.ByteString
import TypeLang.Wire.Depth
import TypeLang.Wire.Mask
import TypeLang.Wire.Vectors

/-!
The lengths of objects in a buffer, found by walking over their fields. A walk reads the masks on
its way, passes over the fields whose bits are clear, and is recorded when it comes to its end.
-/

set_option autoImplicit false
set_option relaxedAutoImplicit false

namespace TypeLang

open Wire

/-- The length of a value of some kind at a place. The lengths of objects are given by `object`. -/
def Kind.measure (object : Reference → Nat → Metered Nat) (buffer : ByteArray) :
    Kind → Nat → Metered Nat
  | mask, pos | int, pos => .lift (ensure buffer pos 4)
  | long, pos | double, pos => .lift (ensure buffer pos 8)
  | int128, pos => .lift (ensure buffer pos 16)
  | int256, pos => .lift (ensure buffer pos 32)
  | presence, pos => .lift (ensure buffer pos 0)
  | bool, pos => .lift ((readBool buffer pos).map fun _ => 4)
  | bytes, pos | string, pos => .lift (ByteString.sizeOf buffer pos)
  | vector boxed element, pos =>
    Vectors.sizeOf (fun at_ => element.measure object buffer at_) buffer pos boxed
  | .object typeName bare, pos => object (.typed typeName bare) pos
  | generic _, pos | anyObject, pos => object .any pos

namespace Message

/-- Where some fields end that start at a place, and the masks read up to there. -/
def walkFields (size : Kind → Nat → Metered Nat) (buffer : ByteArray) :
    List Field → Masks → Nat → Metered (Nat × Masks)
  | [], masks, pos => pure (pos, masks)
  | f :: rest, masks, pos =>
    match f.slot with
    | some slot => do
      let bits ← .lift (readUInt32 buffer pos)
      walkFields size buffer rest (masks.set slot bits) (pos + 4)
    | none => do
      let present ← .lift (masks.asks f)
      if present then do
        let length ← size f.kind pos
        walkFields size buffer rest masks (pos + length)
      else walkFields size buffer rest masks pos

/-- Checks that the tag of an object lies within the buffer. -/
def checkHeader (buffer : ByteArray) (offset header : Nat) : Except Error Unit :=
  if header = 0 then .ok () else (ensure buffer offset header).map fun _ => ()

/-- Walks over the first `count` fields of the object at a place. -/
def walk (size : Kind → Nat → Metered Nat) (buffer : ByteArray) (object : Located)
    (offset count : Nat) : Metered (Nat × Masks) := do
  .lift (checkHeader buffer offset object.header)
  let fields := object.combinator.fields.take count
  let reached ← walkFields size buffer fields .empty (offset + object.header)
  .record fields.length
  return reached

end Message

namespace Schema

open Message

/-- The length of the object at a place, with `free` guards left to take. -/
def measureAt (s : Schema) (buffer : ByteArray) : Nat → Located → Nat → Metered Nat
  | 0, _, offset => .fail (Depth.exceeded offset)
  | free + 1, object, offset => do
    let nested (r : Reference) (pos : Nat) : Metered Nat := do
      let inner ← .lift (s.locate buffer pos r)
      s.measureAt buffer free inner pos
    let fieldCount := object.combinator.fields.length
    let (stop, _) ← walk (Kind.measure nested buffer) buffer object offset fieldCount
    return stop - offset

/-- The length of the object that a reference leads to, with `held` guards taken. -/
def measureReference (s : Schema) (held : Nat) (buffer : ByteArray) (r : Reference)
    (offset : Nat) : Metered Nat := do
  let object ← .lift (s.locate buffer offset r)
  s.measureAt buffer (Depth.limit - held) object offset

/-- The length of a value of some kind, with `held` guards taken. -/
def measureKind (s : Schema) (held : Nat) (buffer : ByteArray) (kind : Kind) (offset : Nat) :
    Metered Nat :=
  kind.measure (s.measureReference held buffer) buffer offset

/-- The number of bytes of the object that a reference leads to. -/
def sizeOf (s : Schema) (held : Nat) (r : Reference) (buffer : ByteArray) (offset : Nat) :
    Metered Nat :=
  s.measureReference held buffer r offset

end Schema

end TypeLang
