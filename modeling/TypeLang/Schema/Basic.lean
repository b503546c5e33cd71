import TypeLang.Declaration.Reader
import TypeLang.Schema.Field

/-!
Schemas: combinators with names and tags of their own. The constructors of a type are the
combinators other than functions that result in it. A type with several constructors is a union, and
a union has tagged constructors only, since their tags tell them apart.
-/

set_option autoImplicit false
set_option relaxedAutoImplicit false

namespace TypeLang

/-- A type and its constructors, in the order of their declarations. -/
structure TypeGroup where
  name : String
  members : List Combinator
deriving Repr

/-- Whether a type has several constructors. -/
def TypeGroup.isUnion (g : TypeGroup) : Bool := 1 < g.members.length

/-- Whether a combinator constructs instances of a type. -/
def Combinator.constructs (c : Combinator) (typeName : String) : Bool :=
  !c.isFunction && c.resultName == typeName

/-- The combinators of a schema, in the order of their declarations. -/
structure Schema where
  combinators : List Combinator
deriving DecidableEq, Repr

namespace Schema

/-- The combinator of a name. -/
def combinator? (s : Schema) (name : String) : Option Combinator :=
  s.combinators.find? (·.name == name)

/-- The place of a combinator among the combinators. -/
def index? (s : Schema) (name : String) : Option Nat :=
  s.combinators.findIdx? (·.name == name)

/-- The combinator that a tag announces. -/
def byTag? (s : Schema) (tag : UInt32) : Option Combinator :=
  s.combinators.find? (·.tag == some tag)

/-- The place of the combinator that a tag announces. -/
def indexByTag? (s : Schema) (tag : UInt32) : Option Nat :=
  s.combinators.findIdx? (·.tag == some tag)

/-- The constructors of a type. -/
def constructors (s : Schema) (typeName : String) : List Combinator :=
  s.combinators.filter (·.constructs typeName)

/-- Whether a type has a constructor. -/
def hasType (s : Schema) (typeName : String) : Bool :=
  s.combinators.any (·.constructs typeName)

/-- The names of the types that have constructors, in the order of their first constructors. -/
def typeNames (s : Schema) : List String :=
  ((s.combinators.filter (!·.isFunction)).map Combinator.resultName).eraseDups

/-- The type of a name, if it has a constructor. -/
def group? (s : Schema) (typeName : String) : Option TypeGroup :=
  if s.hasType typeName then some ⟨typeName, s.constructors typeName⟩ else none

/-- The types that have constructors. -/
def groups (s : Schema) : List TypeGroup :=
  s.typeNames.map fun name => ⟨name, s.constructors name⟩

/-- The types with several constructors. -/
def unions (s : Schema) : List TypeGroup := s.groups.filter (·.isUnion)

/-- The functions. -/
def functions (s : Schema) : List Combinator := s.combinators.filter (·.isFunction)

/-- The constructor of a type that a tag announces. -/
def constructorByTag? (s : Schema) (typeName : String) (tag : UInt32) : Option Combinator :=
  (s.byTag? tag).filter (·.constructs typeName)

/-- The only constructor of a type, if that has no tag. Such a type has no tag on the wire even
where a reference to it is boxed. -/
def tagless? (s : Schema) (typeName : String) : Option Combinator :=
  match s.constructors typeName with
  | [only] => if only.tag.isNone then some only else none
  | _ => none

/-- What a bare reference stands for: the combinator of that name, or the only constructor of the
type of that name. -/
def bareTarget? (s : Schema) (name : String) : Option Combinator :=
  match s.combinator? name with
  | some c => some c
  | none =>
    match s.constructors name with
    | [only] => some only
    | _ => none

/-- The combinator of a declaration that comes behind others. It may share its name or its tag with
none of them. -/
def accept (earlier : List Combinator) (d : Declaration) : Except StateFault Combinator :=
  match earlier.find? (·.name == d.qualifiedName) with
  | some c =>
    .error (.declaredTwice d.qualifiedName c.declaration.position.line d.position.line)
  | none =>
    match d.tag.bind fun tag => (earlier.find? (·.tag == some tag)).map (tag, ·) with
    | some (tag, c) => .error (.sharedTag tag c.name d.qualifiedName)
    | none => (Field.ofDeclaration d).map (⟨d, ·⟩)

/-- The combinators of some declarations that come behind others. -/
def acceptAll (earlier : List Combinator) :
    List Declaration → Except StateFault (List Combinator)
  | [] => .ok earlier
  | d :: rest =>
    match accept earlier d with
    | .ok c => acceptAll (earlier ++ [c]) rest
    | .error fault => .error fault

/-- The first constructor without a tag in the first union that has one. -/
def untaggedMember? (s : Schema) : Option (TypeGroup × Combinator) :=
  s.unions.findSome? fun g => (g.members.find? (·.tag.isNone)).map (g, ·)

/-- The schema of some declarations. -/
def ofDeclarations (ds : List Declaration) : Except Error Schema :=
  match acceptAll [] ds with
  | .error fault => .error (.invalidState fault)
  | .ok combinators =>
    let s : Schema := ⟨combinators⟩
    match s.untaggedMember? with
    | some (g, c) => .error (.invalidState (.untaggedMember g.name c.name))
    | none => .ok s

/-- The schema of a text. -/
def compile (source : String) : Except Error Schema :=
  match Declaration.parse source with
  | .ok ds => ofDeclarations ds
  | .error e => .error e

end Schema

end TypeLang
