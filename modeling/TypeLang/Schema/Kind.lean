import TypeLang.Text.Quoted
import TypeLang.Declaration.Basic

/-!
The kinds of fields. A kind says how a value stands on the wire, as far as the declaration of its
field decides it; which combinator an object is remains to be looked up.
-/

set_option autoImplicit false
set_option relaxedAutoImplicit false

namespace TypeLang

/-- How a field stands on the wire. A `presence` field occupies no bytes: its value is the bit of
a mask. A bare object carries no tag. A `generic` field holds any boxed object. -/
inductive Kind
  | mask | int | long | double | int128 | int256 | bytes | string | presence | bool
  | vector (boxed : Bool) (element : Kind)
  | object (typeName : String) (bare : Bool)
  | generic (parameter : String)
  | anyObject
deriving DecidableEq, Repr, Inhabited

namespace Kind

/-- The number of bytes of a kind whose values all have the same size. -/
def width? : Kind → Option Nat
  | mask | int | bool => some 4
  | long | double => some 8
  | int128 => some 16
  | int256 => some 32
  | presence => some 0
  | bytes | string | vector .. | object .. | generic _ | anyObject => none

/-- The kinds that names outside any namespace stand for. -/
def builtin? : String → Option Kind
  | "int" => some int
  | "long" => some long
  | "double" => some double
  | "int128" => some int128
  | "int256" => some int256
  | "bytes" => some bytes
  | "string" => some string
  | "true" => some presence
  | "Bool" => some bool
  | "Object" => some anyObject
  | _ => none

/-- The kind of a name that is no vector. A generic parameter hides a built-in name. -/
def ofHead (isGeneric : String → Bool) (head : TypeTerm.Head) : Kind :=
  let user := object head.name.text head.bare
  if head.name.base == "#" then mask
  else if head.name.space?.isSome then user
  else if isGeneric head.name.base then generic head.name.base
  else (builtin? head.name.base).getD user

/-- The kind of a type, where `isGeneric` tells the generic parameters. A vector without an
element type holds objects of any kind. -/
def ofTerm (isGeneric : String → Bool) : TypeTerm → Kind
  | .name head =>
    if head.isVector && !isGeneric head.name.base then vector (!head.bare) anyObject
    else ofHead isGeneric head
  | .applied head argument =>
    if head.isVector && !isGeneric head.name.base then
      vector (!head.bare) (ofTerm isGeneric argument)
    else ofHead isGeneric head

/-- How diagnostics show a kind. -/
def text : Kind → String
  | mask => "Flags"
  | int => "Int"
  | long => "Long"
  | double => "Double"
  | int128 => "Int128"
  | int256 => "Int256"
  | bytes => "Bytes"
  | string => "String"
  | presence => "True"
  | bool => "Bool"
  | vector boxed element =>
    "Vector \x7b boxed: " ++ toString boxed ++ ", elem: " ++ element.text ++ " \x7d"
  | object typeName bare =>
    "Object \x7b type_name: " ++ Text.quoted typeName ++ ", bare: " ++ toString bare ++ " \x7d"
  | generic parameter => "Generic \x7b param: " ++ Text.quoted parameter ++ " \x7d"
  | anyObject => "AnyObject"

end Kind

end TypeLang
