import TypeLang.Generate.Naming
import TypeLang.Schema.Basic

/-!
The items of a generated module and the names they go by. Every union has an enum and every
combinator a struct; a struct whose name is taken by then says that it is a constructor.
-/

set_option autoImplicit false
set_option relaxedAutoImplicit false

namespace TypeLang.Generate

/-- The item that holds an object of any type. -/
def anyObjectItem : String := "AnyObject"

/-- The item of a combinator. -/
def chooseStruct (taken : List String) (name : String) : String :=
  let base := pascalCase name
  if taken.contains base then fresh taken (base ++ "Ctor") else base

/-- The item of a union. -/
def chooseEnum (taken : List String) (name : String) : String := fresh taken (pascalCase name)

/-- The names of the items: enums by the names of their types, structs by the names of their
combinators, both in the order of declaration. -/
structure ItemNames where
  enums : List (String × String)
  structs : List (String × String)
deriving DecidableEq, Repr

namespace ItemNames

/-- The names of the items of a schema. -/
def ofSchema (s : Schema) : ItemNames :=
  let types := s.unions.map (·.name)
  let enums := assign chooseEnum [anyObjectItem] types
  let combinators := s.combinators.map Combinator.name
  let structs := assign chooseStruct (enums.reverse ++ [anyObjectItem]) combinators
  ⟨types.zip enums, combinators.zip structs⟩

/-- The struct of a combinator. -/
def struct (names : ItemNames) (c : Combinator) : String :=
  (names.structs.lookup c.name).getD ""

/-- The enum of a union. -/
def enum (names : ItemNames) (typeName : String) : String :=
  (names.enums.lookup typeName).getD ""

end ItemNames

/-- What a field refers to: an item that is read with its tag or one that is read without. -/
inductive ItemTarget
  | boxed (item : String)
  | bare (item : String)
deriving DecidableEq, Repr

/-- The item that a type refers to. A type whose only constructor has no tag exists bare only. -/
def itemTarget (s : Schema) (names : ItemNames) (typeName : String) (bare : Bool) :
    Except Error ItemTarget :=
  if bare then
    match s.bareTarget? typeName with
    | some c => .ok (.bare (names.struct c))
    | none => .error (.unknownType typeName)
  else
    match s.constructors typeName with
    | [] => .error (.unknownType typeName)
    | [only] =>
      if only.tag.isNone then .ok (.bare (names.struct only))
      else .ok (.boxed (names.struct only))
    | _ => .ok (.boxed (names.enum typeName))

/-- The methods that every item has. -/
def viewMethods : List String :=
  ["as_bytes", "build", "constructor_tag", "field_offset", "offset_of", "required_size"]

/-- The variables of a generated `build`. -/
def buildLocals : List String := ["buf", "pos", "size", "v"]

/-- The accessor of an argument. -/
def chooseAccessor (taken : List String) (name : String) : String :=
  let escaped := escapeKeyword (snakeCase name)
  fresh taken (if viewMethods.contains escaped then escaped ++ "_field" else escaped)

/-- The accessors of some arguments. -/
def accessors (arguments : List String) : List String := assign chooseAccessor [] arguments

/-- The parameter of `build` for an accessor. -/
def buildParameter (accessor : String) : String :=
  if buildLocals.contains accessor then accessor ++ "_" else accessor

end TypeLang.Generate
