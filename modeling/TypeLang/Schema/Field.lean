import TypeLang.Error

/-!
The fields of a combinator, resolved from its arguments. Masks are numbered from zero in the order
of the arguments, and a condition becomes a gate: the number of a mask and a bit of it.
-/

set_option autoImplicit false
set_option relaxedAutoImplicit false

namespace TypeLang

/-- A bit of a mask, the mask given by its number. -/
structure Gate where
  slot : Nat
  bit : UInt8
deriving DecidableEq, Repr

/-- A field: how it stands on the wire, the bit that says whether it is there, and its number if it
is a mask. -/
structure Field where
  name : String
  kind : Kind
  gate : Option Gate
  slot : Option Nat
deriving DecidableEq, Repr

namespace Field

/-- Whether the value of the field is its bit. -/
def isPresence (f : Field) : Bool := f.kind == .presence

/-- How many masks a combinator may have. -/
def maskLimit : Nat := 8

/-- The gate of an argument of `owner`, among the masks up to and including the argument. -/
def resolveGate (owner : Declaration) (a : Argument) (masks : List String) :
    Except StateFault (Option Gate) :=
  match a.condition with
  | none => .ok none
  | some c =>
    match masks.findIdx? (· == c.field) with
    | some slot => .ok (some ⟨slot, c.bit⟩)
    | none => .error (.undeclaredMask owner.qualifiedName a.name c.field)

/-- The field of an argument of `owner`, given the masks before it, and the masks up to and
including it. -/
def resolve (owner : Declaration) (masks : List String) (a : Argument) :
    Except StateFault (Field × List String) :=
  let kind := Kind.ofTerm owner.isGeneric a.type
  if kind = .mask then
    if masks.length = maskLimit then .error (.tooManyMasks owner.qualifiedName maskLimit)
    else
      (resolveGate owner a (masks ++ [a.name])).map fun gate =>
        (⟨a.name, kind, gate, some masks.length⟩, masks ++ [a.name])
  else (resolveGate owner a masks).map fun gate => (⟨a.name, kind, gate, none⟩, masks)

/-- The fields of some arguments of `owner`, given the masks before them. -/
def resolveAll (owner : Declaration) (masks : List String) :
    List Argument → Except StateFault (List Field)
  | [] => .ok []
  | a :: rest =>
    match resolve owner masks a with
    | .ok (field, masks) => (resolveAll owner masks rest).map (field :: ·)
    | .error fault => .error fault

/-- The fields of a declaration. -/
def ofDeclaration (d : Declaration) : Except StateFault (List Field) :=
  resolveAll d [] d.arguments

end Field

/-- A declaration with its fields, one to an argument. -/
structure Combinator where
  declaration : Declaration
  fields : List Field
deriving DecidableEq, Repr

namespace Combinator

/-- The name in one piece. -/
def name (c : Combinator) : String := c.declaration.qualifiedName

/-- The tag that announces an instance. -/
def tag (c : Combinator) : Option UInt32 := c.declaration.tag

/-- The name of the type that instances belong to. -/
def resultName (c : Combinator) : String := c.declaration.resultName

/-- Whether the combinator is a function and so constructs no instance of its result. -/
def isFunction (c : Combinator) : Bool := c.declaration.isFunction

/-- The place of a field among the fields. -/
def fieldIndex? (c : Combinator) (name : String) : Option Nat :=
  c.declaration.argumentIndex? name

end Combinator

end TypeLang
