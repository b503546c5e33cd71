import TypeLang.Wire.Metered
import TypeLang.Wire.Scalar

/-!
Vectors. A count stands before the elements, and a tag before the count where the vector is boxed.
Elements that occupy no bytes cannot be told apart, so a walk over a vector ends at the first of
them, whatever the count says.
-/

set_option autoImplicit false
set_option relaxedAutoImplicit false

namespace TypeLang.Wire.Vectors

/-- The tag of a boxed vector. -/
def tag : UInt32 := 0x1cb5c415

/-- The length of what stands before the elements. -/
def headerLength (boxed : Bool) : Nat := if boxed then 8 else 4

/-- Checks the tag of a boxed vector. -/
def checkTag (buffer : ByteArray) (offset : Nat) (boxed : Bool) : Except Error Unit :=
  if boxed then
    match readUInt32 buffer offset with
    | .error e => .error e
    | .ok found => if found = tag then .ok () else .error (.unknownConstructor found)
  else .ok ()

/-- The count of a vector and the length of its header. The count is the end of the header. -/
def readHeader (buffer : ByteArray) (offset : Nat) (boxed : Bool) : Except Error (Nat × Nat) :=
  match checkTag buffer offset boxed with
  | .error e => .error e
  | .ok () =>
    match advance buffer.size offset (headerLength boxed) with
    | .error e => .error e
    | .ok behind =>
      (readNat 4 buffer (behind - 4)).map fun count => (count, headerLength boxed)

/-- Where some elements end that start at a place, from the lengths of the elements. -/
def walkItems (size : Nat → Metered Nat) (log : WalkLog) : Nat → Nat → Metered Nat
  | 0, pos => ⟨.ok pos, log⟩
  | count + 1, pos =>
    let step := size pos
    match step.outcome with
    | .error e => ⟨.error e, log ++ step.log⟩
    | .ok 0 => ⟨.ok pos, log ++ step.log⟩
    | .ok length => walkItems size (log ++ step.log) count (pos + length)

/-- The length of the vector at a place, from the lengths of its elements. -/
def sizeOf (size : Nat → Metered Nat) (buffer : ByteArray) (offset : Nat) (boxed : Bool) :
    Metered Nat := do
  let (count, header) ← .lift (readHeader buffer offset boxed)
  let stop ← walkItems size .empty count (offset + header)
  return stop - offset

/-- Elements that start at a place, with what stands before them in `done`, and where they end. -/
def readItems {α : Type} (read : Nat → Except Error (α × Nat)) (done : Array α) :
    Nat → Nat → Except Error (Array α × Nat)
  | 0, pos => .ok (done, pos)
  | count + 1, pos =>
    match read pos with
    | .error e => .error e
    | .ok (item, 0) => .ok (done.push item, pos)
    | .ok (item, length) => readItems read (done.push item) count (pos + length)

/-- The elements of the vector at a place, and the length of the vector. -/
def read {α : Type} (read : Nat → Except Error (α × Nat)) (buffer : ByteArray) (offset : Nat)
    (boxed : Bool) : Except Error (List α × Nat) :=
  match readHeader buffer offset boxed with
  | .error e => .error e
  | .ok (count, header) =>
    (readItems read #[] count (offset + header)).map fun (items, stop) =>
      (items.toList, stop - offset)

end TypeLang.Wire.Vectors
