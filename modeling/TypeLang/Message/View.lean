import TypeLang.Message.Decode

/-!
Views of single objects. A view keeps the bytes of just one object, and reads a field when it is
asked for, by a walk over the fields before it.
-/

set_option autoImplicit false
set_option relaxedAutoImplicit false

namespace TypeLang

open Wire Message

/-- The bytes of one object, and what the object is. -/
structure View where
  object : Located
  bytes : ByteArray

namespace View

/-- The combinator of the object. -/
def combinator (v : View) : Combinator := v.object.combinator

/-- A view of an object that has to occupy all of some bytes. -/
def ofBytes (s : Schema) (held : Nat) (object : Located) (bytes : ByteArray) : Metered View := do
  let size ← s.measureAt bytes (Depth.limit - held) object 0
  if size = bytes.size then return ⟨object, bytes⟩
  else .fail (.malformed size .trailingBytes)

/-- The tag before the fields. It need not be the one the combinator was declared with. -/
def constructorTag? (v : View) : Option UInt32 :=
  if v.object.header = 0 then none else (readUInt32 v.bytes 0).toOption

/-- The number of fields. -/
def fieldCount (v : View) : Nat := v.combinator.declaration.arguments.length

/-- The field of a number, where it starts, and the masks before it. -/
def walkTo (v : View) (s : Schema) (held index : Nat) : Metered (Field × Nat × Masks) :=
  match v.combinator.fields[index]? with
  | none => .fail (.invalidState (.noFieldNumber v.combinator.name index))
  | some f => do
    let reached ← walk (s.measureKind held v.bytes) v.bytes v.object 0 index
    return (f, reached)

/-- Where a field starts, or would start if it were there. -/
def fieldOffset (v : View) (s : Schema) (held index : Nat) : Metered Nat := do
  let (_, pos, _) ← v.walkTo s held index
  return pos

/-- Whether a field is there. -/
def isPresent (v : View) (s : Schema) (held index : Nat) : Metered Bool := do
  let (f, _, masks) ← v.walkTo s held index
  .lift (masks.asks f)

/-- The value of a field, which is a bit for a presence field and a zero for an absent one. -/
def field (v : View) (s : Schema) (held index : Nat) : Metered Value := do
  let (f, pos, masks) ← v.walkTo s held index
  let present ← .lift (masks.asks f)
  if f.isPresence then return .bool present
  else if present then
    let (value, _) ← .lift (s.decodeKind held v.bytes f.kind pos)
    return value
  else return f.kind.zero

/-- The value of the field of a name. -/
def fieldByName (v : View) (s : Schema) (held : Nat) (name : String) : Metered Value :=
  match v.combinator.fieldIndex? name with
  | some index => v.field s held index
  | none => .fail (.invalidState (.noFieldNamed name))

/-- The bytes of a field. An absent field has none. -/
def fieldBytes (v : View) (s : Schema) (held index : Nat) : Metered ByteArray := do
  let (f, pos, masks) ← v.walkTo s held index
  let present ← .lift (masks.asks f)
  if present then
    let size ← s.measureKind held v.bytes f.kind pos
    return v.bytes.extract pos (pos + size)
  else return ByteArray.empty

/-- The object that some bytes are as a value of a kind. -/
def locateField (s : Schema) (index : Nat) (kind : Kind) (bytes : ByteArray) :
    Except Error Located :=
  match kind with
  | .object typeName bare =>
    match s.headerless? typeName bare with
    | .error e => .error e
    | .ok (some c) => .ok ⟨c, 0⟩
    | .ok none => s.locateAny bytes 0
  | .generic _ | .anyObject => s.locateAny bytes 0
  | kind => .error (.invalidState (.notAnObject index kind))

/-- A view of the object in a field, if the field is there. -/
def objectField (v : View) (s : Schema) (held index : Nat) : Metered (Option View) := do
  let present ← v.isPresent s held index
  if present then
    let bytes ← v.fieldBytes s held index
    let kind := (v.combinator.fields[index]?.map Field.kind).getD .anyObject
    let object ← .lift (locateField s index kind bytes)
    let inner ← ofBytes s held object bytes
    return some inner
  else return none

/-- The whole object. -/
def toObject (v : View) (s : Schema) (held : Nat) : Except Error Object :=
  (s.decodeAt v.bytes (Depth.limit - held) v.object 0).map (·.1)

/-- How diagnostics show an object that is not read. -/
def diagnostic (v : View) : String :=
  "CombinatorView \x7b combinator: " ++ Text.quoted v.combinator.name ++ ", bytes: " ++
    toString v.bytes.size ++ " \x7d"

end View

/-- A view of bytes that are one object of the combinator of a name, with `held` guards taken. -/
def Schema.view (s : Schema) (held : Nat) (name : String) (bytes : ByteArray) : Metered View := do
  let object ← .lift (s.locateNamed name)
  View.ofBytes s held object bytes

end TypeLang
