import TypeLang.Token.Basic

/-!
Declarations of combinators. A combinator has a name, possibly a tag, generic parameters, arguments
and a result. An argument may be conditional on a bit of an earlier mask argument.
-/

set_option autoImplicit false
set_option relaxedAutoImplicit false

namespace TypeLang

/-- A name within a namespace, if it has one. -/
structure QualifiedName where
  space? : Option String
  base : String
deriving DecidableEq, Repr, Inhabited

namespace QualifiedName

/-- The name in one piece, with a dot between namespace and base. -/
def text (n : QualifiedName) : String :=
  match n.space? with
  | some space => space ++ "." ++ n.base
  | none => n.base

/-- The texts on either side of the last dot. -/
def splitLastDot? : List Char → Option (List Char × List Char)
  | [] => none
  | c :: rest =>
    match splitLastDot? rest with
    | some (front, back) => some (c :: front, back)
    | none => if c = '.' then some ([], rest) else none

/-- Splits a text at its last dot, if neither side of that dot is empty. -/
def ofText (text : String) : QualifiedName :=
  match splitLastDot? text.toList with
  | some (space, base) =>
    if space.isEmpty || base.isEmpty then ⟨none, text⟩
    else ⟨some (String.ofList space), String.ofList base⟩
  | none => ⟨none, text⟩

end QualifiedName

/-- The outermost part of a type: its name, whether it is bare (carries no tag) and whether it is
the invocation of a generic parameter. -/
structure TypeTerm.Head where
  name : QualifiedName
  bare : Bool
  bang : Bool
deriving DecidableEq, Repr, Inhabited

/-- A type as it is written: a name, or a name applied to one other type. -/
inductive TypeTerm
  | name (head : TypeTerm.Head)
  | applied (head : TypeTerm.Head) (argument : TypeTerm)
deriving DecidableEq, Repr, Inhabited

namespace TypeTerm

/-- The outermost part. -/
def head : TypeTerm → Head
  | name head | applied head _ => head

/-- The same type with a change to its outermost part. -/
def mapHead (f : Head → Head) : TypeTerm → TypeTerm
  | name head => name (f head)
  | applied head argument => applied (f head) argument

/-- The same type without a tag. -/
def asBare (t : TypeTerm) : TypeTerm := t.mapHead fun head => { head with bare := true }

/-- Whether the first character satisfies `p`. -/
def startsWith (p : Char → Bool) (text : String) : Bool := text.toList.head?.any p

/-- The outermost part that a name stands for. A name in lower case is bare. -/
def Head.ofText (text : String) : Head :=
  let name := QualifiedName.ofText text
  ⟨name, startsWith Char.isLower name.base, false⟩

/-- The type that a name stands for. -/
def ofText (text : String) : TypeTerm := name (Head.ofText text)

/-- The type of a mask. -/
def mask : TypeTerm := name ⟨⟨none, "#"⟩, true, false⟩

/-- The invocation of a generic parameter. -/
def invocation (parameter : String) : TypeTerm := name ⟨⟨none, parameter⟩, true, true⟩

/-- Whether a name is the given one, outside any namespace. -/
def Head.isPlain (head : Head) (base : String) : Bool :=
  head.name.space?.isNone && head.name.base == base

/-- Whether the type is that of a mask. -/
def isMask (t : TypeTerm) : Bool := t.head.name.base == "#"

/-- Whether the outermost name is that of vectors, in any case. -/
def Head.isVector (head : Head) : Bool :=
  head.name.space?.isNone && head.name.base.toList.map Char.toLower == "vector".toList

/-- Whether the type is one of vectors. -/
def isVector (t : TypeTerm) : Bool := t.head.isVector

end TypeTerm

/-- The condition that a bit of a mask argument is set. -/
structure Condition where
  field : String
  bit : UInt8
deriving DecidableEq, Repr

/-- An argument of a combinator. -/
structure Argument where
  name : String
  type : TypeTerm
  condition : Option Condition
deriving DecidableEq, Repr

/-- Whether the value of an argument is its bit, so that it occupies no bytes. -/
def Argument.isPresenceOnly (a : Argument) : Bool := a.type.head.isPlain "true"

/-- A generic parameter and what it ranges over. -/
structure GenericParameter where
  name : String
  constraint : String
deriving DecidableEq, Repr

/-- A combinator as it is declared. -/
structure Declaration where
  name : QualifiedName
  tag : Option UInt32
  generics : List GenericParameter
  arguments : List Argument
  result : TypeTerm
  isFunction : Bool
  position : Position
deriving DecidableEq, Repr

namespace Declaration

/-- The name in one piece. -/
def qualifiedName (d : Declaration) : String := d.name.text

/-- The place of an argument among the arguments. -/
def argumentIndex? (d : Declaration) (name : String) : Option Nat :=
  d.arguments.findIdx? (·.name == name)

/-- Whether a name is that of a generic parameter. -/
def isGeneric (d : Declaration) (name : String) : Bool := d.generics.any (·.name == name)

/-- The name of the type that the combinator results in. -/
def resultName (d : Declaration) : String := d.result.head.name.text

end Declaration

end TypeLang
