import TypeLang.Wire.ByteString
import TypeLang.Wire.Metered
import TypeLang.Wire.Vectors

/-!
What a writer puts down at a place of a buffer: pieces one after the other, up to the first that
does not fit or cannot be written. The pieces before a fault stay written.
-/

set_option autoImplicit false
set_option relaxedAutoImplicit false

namespace TypeLang.Wire

/-- The bytes put down, the walks taken on the way, and the fault that stopped the writer, if
any. -/
structure Emission where
  bytes : ByteArray
  log : WalkLog
  fault? : Option Error

/-- Checks that a value supplied as bytes occupies all of them. -/
def checkExact (supplied size : Nat) (what : String) : Except StateFault Unit :=
  if size = supplied then .ok () else .error (.inexact what supplied size)

namespace Emission

/-- Nothing put down. -/
def empty : Emission := ⟨.empty, .empty, none⟩

/-- A fault before anything is put down. -/
def fail (e : Error) : Emission := ⟨.empty, .empty, some e⟩

/-- The fault that a value cannot be written. -/
def refuse (fault : StateFault) : Emission := fail (.invalidState fault)

/-- One piece at a place of a buffer of `limit` bytes. It is put down whole or not at all. -/
def piece (limit offset : Nat) (bytes : ByteArray) : Emission :=
  if offset + bytes.size ≤ limit then ⟨bytes, .empty, none⟩
  else fail (truncated limit offset bytes.size)

/-- What one writer puts down and then what another does. -/
def append (a b : Emission) : Emission := ⟨a.bytes ++ b.bytes, a.log ++ b.log, b.fault?⟩

/-- Continues behind what is put down, unless a fault stopped the writer. The continuation is told
how many bytes there are already. -/
def andThen (e : Emission) (next : Nat → Emission) : Emission :=
  match e.fault? with
  | some _ => e
  | none => e.append (next e.bytes.size)

/-- Continues behind a metered outcome. -/
def ofMetered {α : Type} (m : Metered α) (next : α → Emission) : Emission :=
  match m.outcome with
  | .error e => ⟨.empty, m.log, some e⟩
  | .ok a => (⟨.empty, m.log, none⟩ : Emission).append (next a)

/-- How much is put down, as an outcome. -/
def outcome (e : Emission) : Except Error Nat :=
  match e.fault? with
  | some fault => .error fault
  | none => .ok e.bytes.size

/-- A buffer with what is put down at a place of it. -/
def apply (e : Emission) (buffer : ByteArray) (offset : Nat) : ByteArray :=
  if e.bytes.isEmpty then buffer else overwrite buffer offset e.bytes

/-- A byte string. Data whose length cannot be given is refused. -/
def byteString (limit offset : Nat) (data : ByteArray) : Emission :=
  if ByteString.lengthLimit < data.size then refuse (.longByteString data.size)
  else piece limit offset (ByteString.encode data)

/-- The count of a vector, which is the end of its header. -/
def vectorCount (limit offset : Nat) (boxed : Bool) (count : Nat) : Emission :=
  match advance limit offset (Vectors.headerLength boxed) with
  | .error e => fail e
  | .ok behind => piece limit (behind - 4) (encodeNat 4 count)

/-- The header of a vector: the tag where it is boxed, and the count. -/
def vectorHeader (limit offset : Nat) (boxed : Bool) (count : Nat) : Emission :=
  if boxed then
    (piece limit offset (encodeUInt32 Vectors.tag)).andThen fun _ =>
      vectorCount limit offset boxed count
  else vectorCount limit offset boxed count

end Emission

end TypeLang.Wire
