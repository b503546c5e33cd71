import TypeLang.Message.Masks
import TypeLang.Schema.Reference
import TypeLang.Value.Zero
import TypeLang.Wire.ByteString
import TypeLang.Wire.Vectors

/-!
The lengths of objects to be written, found from their values before any byte is written. What is
supplied as bytes counts with all of them, whether or not they turn out to be an object.
-/

set_option autoImplicit false
set_option relaxedAutoImplicit false

namespace TypeLang

open Wire

/-- The length of the zero of a kind, if the kind has one. -/
def Kind.zeroLength? : Kind → Option Nat
  | bytes | string => some (ByteString.encodedLength 0)
  | vector boxed _ => some (Vectors.headerLength boxed)
  | kind => kind.width?

namespace Schema

/-- The combinator of an object to be written and its tag. A bare object has no tag, and a boxed
one needs one. -/
def locateWritten (s : Schema) (name : String) (bare : Bool) : Except Error Located :=
  match s.locateNamed name with
  | .error e => .error e
  | .ok object =>
    if bare then .ok { object with header := 0 }
    else if object.header = 0 then .error (.invalidState (.untaggedBoxed name))
    else .ok object

/-- Whether an object of a type is written without a tag. -/
def writesBare (s : Schema) (typeName : String) (bare : Bool) : Bool :=
  bare || (s.tagless? typeName).isSome

end Schema

namespace Message

/-- The length of a value that holds no other values. -/
def plainLength (field : String) (kind : Kind) (v : Value) : Except Error Nat :=
  match kind.width? with
  | some width => .ok width
  | none =>
    match kind, v with
    | .bytes, .bytes data | .string, .bytes data =>
      .ok (ByteString.encodedLength data.size)
    | _, .bytes data => .ok data.size
    | _, _ => .error (.invalidState (.wrongType field kind v))

/-- The length of the fields that are there, given the lengths of the supplied ones. -/
def bodyLength (masks : Masks) (entry : Field → Except Error Nat) (fields : List Field) :
    Except Error Nat :=
  fields.foldlM (fun size f =>
    match f.slot with
    | some _ => .ok (size + 4)
    | none =>
      match masks.skips f with
      | .error e => .error e
      | .ok true => .ok size
      | .ok false => (entry f).map (size + ·)) 0

/-- The length of an object, given the lengths of its supplied fields. -/
def instanceLength (located : Except Error Located) (entries : Entries)
    (entry : Field → Except Error Nat) : Except Error Nat :=
  match located with
  | .error e => .error e
  | .ok object =>
    match resolveMasks object.combinator.fields entries with
    | .error e => .error e
    | .ok masks =>
      (bodyLength masks entry object.combinator.fields).map (object.header + ·)

mutual

/-- The length of a value of some kind. -/
def valueLength (s : Schema) (field : String) (kind : Kind) : Value → Except Error Nat
  | .vector items =>
    match kind with
    | .vector boxed element =>
      itemsLength s field element (Vectors.headerLength boxed) items
    | _ => plainLength field kind (.vector items)
  | .object ⟨name, tag, entries⟩ =>
    match kind with
    | .object typeName bare =>
      instanceLength (s.locateWritten name (s.writesBare typeName bare)) entries
        (fun f => entryLength s f.name f.kind entries)
    | .generic _ | .anyObject =>
      instanceLength (s.locateWritten name false) entries
        (fun f => entryLength s f.name f.kind entries)
    | _ => plainLength field kind (.object ⟨name, tag, entries⟩)
  | v => plainLength field kind v

/-- The length of items behind a given length. -/
def itemsLength (s : Schema) (field : String) (element : Kind) (done : Nat) :
    List Value → Except Error Nat
  | [] => .ok done
  | v :: rest =>
    match valueLength s field element v with
    | .error e => .error e
    | .ok length => itemsLength s field element (done + length) rest

/-- The length of the first value under a name, or of the zero where there is none. -/
def entryLength (s : Schema) (name : String) (kind : Kind) :
    List (String × Value) → Except Error Nat
  | [] =>
    match kind.zeroLength? with
    | some length => .ok length
    | none => .error (.invalidState (.missingValue name))
  | (other, v) :: rest =>
    if other = name then valueLength s name kind v else entryLength s name kind rest

end

end Message

end TypeLang
