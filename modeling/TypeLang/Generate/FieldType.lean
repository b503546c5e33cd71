import TypeLang.Generate.Items

/-!
The types of fields in a generated module, and the expressions that measure, read and write them.
-/

set_option autoImplicit false
set_option relaxedAutoImplicit false

namespace TypeLang.Generate

/-- The type of a field. An object is the item it refers to. -/
inductive FieldType
  | mask | int | long | double | int128 | int256 | bytes | presence | bool
  | vector (boxed : Bool) (element : FieldType)
  | item (target : ItemTarget)
  | anyObject
deriving DecidableEq, Repr

namespace FieldType

/-- The type of a field of some kind. -/
def ofKind (s : Schema) (names : ItemNames) : Kind → Except Error FieldType
  | .mask => .ok mask
  | .int => .ok int
  | .long => .ok long
  | .double => .ok double
  | .int128 => .ok int128
  | .int256 => .ok int256
  | .bytes | .string => .ok bytes
  | .presence => .ok presence
  | .bool => .ok bool
  | .vector boxed element => (ofKind s names element).map (vector boxed)
  | .object typeName bare => (itemTarget s names typeName bare).map item
  | .generic _ | .anyObject => .ok anyObject

/-- The number of bytes of a type whose values all have the same size. -/
def width? : FieldType → Option Nat
  | mask | int | bool => some 4
  | long | double => some 8
  | int128 => some 16
  | int256 => some 32
  | presence => some 0
  | bytes | vector .. | item _ | anyObject => none

/-- The expression for the length of a value at a place. -/
def sizeExpr (buf pos : String) : FieldType → String
  | presence => "Ok(0)"
  | bool => s!"<bool as layout::TlRead>::size_of({buf}, {pos})"
  | bytes => s!"layout::bytes_size_of({buf}, {pos})"
  | vector boxed element =>
    s!"layout::vector_size_of({buf}, {pos}, {boxed}, |buf, pos| " ++
      element.sizeExpr "buf" "pos" ++ ")"
  | item (.boxed name) => s!"<{name} as layout::TlRead>::size_of({buf}, {pos})"
  | item (.bare name) => s!"<{name} as layout::TlBareRead>::bare_size_of({buf}, {pos})"
  | anyObject => s!"size_of_any({buf}, {pos})"
  | mask | int => s!"layout::ensure({buf}, {pos}, 4)"
  | long | double => s!"layout::ensure({buf}, {pos}, 8)"
  | int128 => s!"layout::ensure({buf}, {pos}, 16)"
  | int256 => s!"layout::ensure({buf}, {pos}, 32)"

/-- The type of a vector's elements, given the type they are read as. Elements without a tag of
their own are wrapped. -/
def elementOf (readType : String) : FieldType → String
  | item (.bare _) | vector false _ => s!"layout::Bare<{readType}>"
  | _ => readType

/-- The type that an accessor reads. -/
def readType : FieldType → String
  | mask => "u32"
  | int => "i32"
  | long => "i64"
  | double => "f64"
  | int128 => "[u8; 16]"
  | int256 => "[u8; 32]"
  | bytes => "&'a [u8]"
  | bool | presence => "bool"
  | vector _ element => "layout::VectorView<'a, " ++ elementOf element.readType element ++ ">"
  | item (.boxed name) | item (.bare name) => s!"{name}<'a>"
  | anyObject => "AnyObject<'a>"

/-- The expression for a value at a place. -/
def readExpr (buf pos : String) : FieldType → String
  | vector boxed element =>
    "layout::VectorView::<'a, " ++ elementOf element.readType element ++
      s!">::read_with({buf}, {pos}, {boxed})"
  | item (.boxed name) => s!"<{name}<'a> as layout::TlRead<'a>>::read({buf}, {pos})"
  | item (.bare name) => s!"<{name}<'a> as layout::TlBareRead<'a>>::read_bare({buf}, {pos})"
  | other => s!"<{other.readType} as layout::TlRead<'a>>::read({buf}, {pos})"

/-- The type of the elements that `build` takes as a slice, if it does. -/
def sliceElement? : FieldType → Option String
  | int => some "i32"
  | long => some "i64"
  | double => some "f64"
  | int128 => some "[u8; 16]"
  | int256 => some "[u8; 32]"
  | bytes => some "&[u8]"
  | bool => some "bool"
  | _ => none

/-- Whether `build` takes a value of the type as bytes of its own, which have to be checked. -/
def isSerialized : FieldType → Bool
  | vector _ element => element.sliceElement?.isNone
  | item _ | anyObject => true
  | _ => false

/-- The type of a parameter of `build`. -/
def parameterType : FieldType → String
  | mask => "u32"
  | int => "i32"
  | long => "i64"
  | double => "f64"
  | bool | presence => "bool"
  | int128 => "&[u8; 16]"
  | int256 => "&[u8; 32]"
  | vector _ element =>
    match element.sliceElement? with
    | some type => s!"&[{type}]"
    | none => "&[u8]"
  | bytes | item _ | anyObject => "&[u8]"

/-- The expression for the length of an argument of `build`. Only types without a width have one. -/
def lengthExpr (v : String) : FieldType → String
  | vector boxed element =>
    if element.sliceElement?.isSome then s!"layout::vector_encoded_len({v}, {boxed})"
    else s!"{v}.len()"
  | _ => s!"{v}.len()"

/-- The expression that writes an argument of `build`. -/
def writeExpr (v : String) : FieldType → String
  | mask => s!"layout::write_u32(&mut buf, pos, {v})"
  | int | long | double | bool | int128 | int256 => s!"{v}.write_to(&mut buf, pos)"
  | presence => "Ok::<usize, rt::TlError>(0)"
  | bytes => s!"layout::write_bytes(&mut buf, pos, {v})"
  | vector boxed element =>
    if element.sliceElement?.isSome then s!"layout::write_vector(&mut buf, pos, {v}, {boxed})"
    else s!"layout::write_raw(&mut buf, pos, {v})"
  | item _ | anyObject => s!"layout::write_raw(&mut buf, pos, {v})"

end FieldType

end TypeLang.Generate
