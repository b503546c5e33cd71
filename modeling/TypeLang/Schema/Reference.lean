import TypeLang.Schema.Basic
import TypeLang.Wire.Scalar

/-!
References to objects in a buffer. What a reference says and the tag in the buffer together decide
which combinator stands there and whether a tag comes before its fields.
-/

set_option autoImplicit false
set_option relaxedAutoImplicit false

namespace TypeLang

open Wire

/-- What is known about an object before it is read: the name of its combinator or of its type, a
type that refers to it, or nothing at all. -/
inductive Reference
  | named (name : String)
  | typed (typeName : String) (bare : Bool)
  | any
deriving DecidableEq, Repr

/-- The object that stands at a place: its combinator, and the length of the tag before its
fields. -/
structure Located where
  combinator : Combinator
  header : Nat
deriving DecidableEq, Repr

namespace Combinator

/-- The length of the tag, if there is one. -/
def header (c : Combinator) : Nat := if c.tag.isSome then tagLength else 0

/-- The combinator with its tag before its fields. -/
def located (c : Combinator) : Located := ⟨c, c.header⟩

end Combinator

namespace Schema

/-- The combinator of a name, with its tag. -/
def locateNamed (s : Schema) (name : String) : Except Error Located :=
  match s.combinator? name with
  | some c => .ok c.located
  | none => .error (.unknownType name)

/-- The combinator that a reference to a type reads without a tag, if it is such a reference. -/
def headerless? (s : Schema) (typeName : String) (bare : Bool) :
    Except Error (Option Combinator) :=
  if bare then
    match s.bareTarget? typeName with
    | some c => .ok (some c)
    | none => .error (.unknownType typeName)
  else .ok (s.tagless? typeName)

/-- The constructor of a type whose tag stands at a place. -/
def locateMember (s : Schema) (typeName : String) (buffer : ByteArray) (offset : Nat) :
    Except Error Located :=
  if s.hasType typeName then
    match readUInt32 buffer offset with
    | .error e => .error e
    | .ok tag =>
      match s.constructorByTag? typeName tag with
      | some c => .ok ⟨c, tagLength⟩
      | none => .error (.unknownConstructor tag)
  else .error (.unknownType typeName)

/-- The object that a type refers to. -/
def locateTyped (s : Schema) (typeName : String) (bare : Bool) (buffer : ByteArray)
    (offset : Nat) : Except Error Located :=
  match s.headerless? typeName bare with
  | .error e => .error e
  | .ok (some c) => .ok ⟨c, 0⟩
  | .ok none => s.locateMember typeName buffer offset

/-- The combinator whose tag stands at a place. -/
def locateAny (s : Schema) (buffer : ByteArray) (offset : Nat) : Except Error Located :=
  match readUInt32 buffer offset with
  | .error e => .error e
  | .ok tag =>
    match s.byTag? tag with
    | some c => .ok ⟨c, tagLength⟩
    | none => .error (.unknownConstructor tag)

/-- The object that a reference leads to. A name is that of a type if it is that of no
combinator. -/
def locate (s : Schema) (buffer : ByteArray) (offset : Nat) : Reference → Except Error Located
  | .named name =>
    if s.hasType name && (s.combinator? name).isNone then s.locateTyped name false buffer offset
    else s.locateNamed name
  | .typed typeName bare => s.locateTyped typeName bare buffer offset
  | .any => s.locateAny buffer offset

end Schema

end TypeLang
