import TypeLang.Schema.Reference
import TypeLang.Wire.ByteString
import TypeLang.Wire.Vectors

/-!
The length of an object from the lengths of its parts alone: the data of byte strings, the encoded
vectors and objects, and which of the conditional fields are there.
-/

set_option autoImplicit false
set_option relaxedAutoImplicit false

namespace TypeLang

open Wire

/-- The lengths of fields, and fields that are there without one. Of several lengths of a field the
last counts. -/
structure SizeInputs where
  lengths : List (String × Nat)
  present : List String

namespace SizeInputs

/-- The length given for a field. -/
def length? (inputs : SizeInputs) (field : String) : Option Nat :=
  inputs.lengths.reverse.lookup field

/-- Whether a conditional field is there. A length says so too. -/
def isPresent (inputs : SizeInputs) (field : String) : Bool :=
  inputs.present.contains field || (inputs.length? field).isSome

/-- The length of a field that is there. -/
def fieldLength (inputs : SizeInputs) (f : Field) : Except StateFault Nat :=
  match f.kind.width?, f.kind with
  | some width, _ => .ok width
  | none, .bytes | none, .string =>
    .ok (ByteString.encodedLength ((inputs.length? f.name).getD 0))
  | none, .vector boxed _ => .ok ((inputs.length? f.name).getD (Vectors.headerLength boxed))
  | none, _ =>
    match inputs.length? f.name with
    | some length => .ok length
    | none => .error (.missingLength f.name)

/-- The length of some fields behind a given length. -/
def fieldsLength (inputs : SizeInputs) (done : Nat) : List Field → Except StateFault Nat
  | [] => .ok done
  | f :: rest =>
    if f.gate.isSome && !inputs.isPresent f.name then inputs.fieldsLength done rest
    else
      match inputs.fieldLength f with
      | .ok length => inputs.fieldsLength (done + length) rest
      | .error fault => .error fault

end SizeInputs

/-- The length of the combinator of a name. -/
def Schema.requiredSize (s : Schema) (name : String) (inputs : SizeInputs) : Except Error Nat :=
  match s.locateNamed name with
  | .error e => .error e
  | .ok object =>
    (inputs.fieldsLength object.header object.combinator.fields).mapError Error.invalidState

end TypeLang
