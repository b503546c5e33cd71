import TypeLang.Message.Measure
import TypeLang.Value.Zero
import TypeLang.Wire.Readable

/-!
Objects read from a buffer. An object has an entry for every field: an absent field has the zero of
its kind, and a presence field has its bit.
-/

set_option autoImplicit false
set_option relaxedAutoImplicit false

namespace TypeLang

open Wire

/-- An outcome, as a value and the number of bytes it occupies. -/
def sized {α : Type} (wrap : α → Value) (size : Nat) (outcome : Except Error α) :
    Except Error (Value × Nat) :=
  outcome.map fun a => (wrap a, size)

/-- The value of some kind at a place, and the number of bytes it occupies. Objects are read by
`object`. -/
def Kind.decode (object : Reference → Nat → Except Error (Object × Nat)) (buffer : ByteArray) :
    Kind → Nat → Except Error (Value × Nat)
  | mask, pos => sized .mask 4 (readUInt32 buffer pos)
  | int, pos => sized .int 4 (readInt32 buffer pos)
  | long, pos => sized .long 8 (readInt64 buffer pos)
  | double, pos => sized .double 8 (readDouble buffer pos)
  | int128, pos => sized .int128 16 (readWord 16 buffer pos)
  | int256, pos => sized .int256 32 (readWord 32 buffer pos)
  | presence, _ => .ok (.bool true, 0)
  | bool, pos => sized .bool 4 (readBool buffer pos)
  | bytes, pos | string, pos =>
    (ByteString.read buffer pos).map fun (data, size) => (.bytes data, size)
  | vector boxed element, pos =>
    (Vectors.read (fun at_ => element.decode object buffer at_) buffer pos boxed).map
      fun (items, size) => (.vector items, size)
  | .object typeName bare, pos =>
    (object (.typed typeName bare) pos).map fun (o, size) => (.object o, size)
  | generic _, pos | anyObject, pos =>
    (object .any pos).map fun (o, size) => (.object o, size)

namespace Message

/-- The entry of a field at a place, the bytes it occupies, and the masks behind it. -/
def decodeField (decode : Kind → Nat → Except Error (Value × Nat)) (buffer : ByteArray)
    (f : Field) (masks : Masks) (pos : Nat) : Except Error (Value × Nat × Masks) :=
  match f.slot with
  | some slot =>
    (readUInt32 buffer pos).map fun bits => (.mask bits, 4, masks.set slot bits)
  | none =>
    match masks.asks f with
    | .error e => .error e
    | .ok present =>
      if f.isPresence then .ok (.bool present, 0, masks)
      else if present then (decode f.kind pos).map fun (v, size) => (v, size, masks)
      else .ok (f.kind.zero, 0, masks)

/-- The entries of fields that start at a place, and where the fields end. -/
def decodeFields (decode : Kind → Nat → Except Error (Value × Nat)) (buffer : ByteArray) :
    List Field → Masks → Nat → Except Error (Entries × Nat)
  | [], _, pos => .ok ([], pos)
  | f :: rest, masks, pos =>
    match decodeField decode buffer f masks pos with
    | .error e => .error e
    | .ok (v, size, masks) =>
      (decodeFields decode buffer rest masks (pos + size)).map fun (entries, stop) =>
        ((f.name, v) :: entries, stop)

end Message

namespace Schema

open Message

/-- The object at a place and the number of bytes it occupies, with `free` guards left to take. -/
def decodeAt (s : Schema) (buffer : ByteArray) :
    Nat → Located → Nat → Except Error (Object × Nat)
  | 0, _, offset => .error (Depth.exceeded offset)
  | free + 1, object, offset =>
    let nested (r : Reference) (pos : Nat) : Except Error (Object × Nat) :=
      match s.locate buffer pos r with
      | .error e => .error e
      | .ok inner => s.decodeAt buffer free inner pos
    let c := object.combinator
    match checkHeader buffer offset object.header with
    | .error e => .error e
    | .ok () =>
      (decodeFields (Kind.decode nested buffer) buffer c.fields .empty
        (offset + object.header)).map
        fun (entries, stop) => (⟨c.name, c.tag, entries⟩, stop - offset)

/-- The object that a reference leads to and the number of bytes it occupies, with `held` guards
taken. -/
def read (s : Schema) (held : Nat) (r : Reference) (buffer : ByteArray) (offset : Nat) :
    Except Error (Object × Nat) :=
  match s.locate buffer offset r with
  | .error e => .error e
  | .ok object => s.decodeAt buffer (Depth.limit - held) object offset

/-- The value of some kind and the number of bytes it occupies, with `held` guards taken. -/
def decodeKind (s : Schema) (held : Nat) (buffer : ByteArray) (kind : Kind) (offset : Nat) :
    Except Error (Value × Nat) :=
  kind.decode (fun r pos => s.read held r buffer pos) buffer offset

/-- The next object of several that stand one behind the other. One that occupies no bytes would
be read for ever, and is refused. -/
def readNext (s : Schema) (held : Nat) (r : Reference) (buffer : ByteArray) (offset : Nat) :
    Except Error (Object × Nat) :=
  match s.read held r buffer offset with
  | .error e => .error e
  | .ok (_, 0) => .error (.malformed offset .emptyStreamObject)
  | .ok found => .ok found

theorem readNext_pos {s : Schema} {held : Nat} {r : Reference} {buffer : ByteArray}
    {offset used : Nat} {o : Object}
    (h : s.readNext held r buffer offset = .ok (o, used)) : 0 < used := by
  unfold readNext at h
  split at h
  · cases h
  · cases h
  · rename_i found hne _
    cases h
    rcases used with _ | used
    · exact absurd rfl (hne o)
    · exact Nat.succ_pos _

/-- The objects from a place to the end of a buffer, each with its place and length, up to the first
that cannot be read. -/
def stream (s : Schema) (held : Nat) (r : Reference) (buffer : ByteArray)
    (done : Array (Object × Nat × Nat)) (offset : Nat) :
    Array (Object × Nat × Nat) × Option (Nat × Error) :=
  if offset < buffer.size then
    match _h : s.readNext held r buffer offset with
    | .error e => (done, some (offset, e))
    | .ok (o, used) =>
      s.stream held r buffer (done.push (o, offset, used)) (offset + used)
  else (done, none)
termination_by buffer.size - offset
decreasing_by
  have := readNext_pos _h
  omega

end Schema

end TypeLang
