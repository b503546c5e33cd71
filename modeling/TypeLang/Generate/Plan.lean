import TypeLang.Generate.FieldType

/-!
What a generated module says about a combinator, before it is put into words: the name of its item,
and for every field its type, its accessor and the mask it depends on.
-/

set_option autoImplicit false
set_option relaxedAutoImplicit false

namespace TypeLang.Generate

/-- A field of a generated item. The gate is given with the number of the field that is its mask. -/
structure FieldPlan where
  argument : Argument
  field : Field
  type : FieldType
  accessor : String
  gate : Option (Nat × Gate)

/-- A generated item. -/
structure ItemPlan where
  combinator : Combinator
  item : String
  fields : List FieldPlan

namespace FieldPlan

/-- The name from which the parameters of `required_size` are made. -/
def base (f : FieldPlan) : String := snakeCase f.argument.name

/-- The parameter of `build`. -/
def parameter (f : FieldPlan) : String := buildParameter f.accessor

/-- Whether the field may be absent. -/
def isConditional (f : FieldPlan) : Bool := f.gate.isSome

/-- The parameter of `required_size`, with its type. Fields whose length is always the same have
none. -/
def sizeParameter? (f : FieldPlan) : Option (String × String) :=
  if f.field.isPresence then none
  else
    match f.type.width?, f.isConditional with
    | some _, true => some ("has_" ++ f.base, "bool")
    | some _, false => none
    | none, true => some (f.base ++ "_len", "Option<usize>")
    | none, false => some (f.base ++ "_len", "usize")

/-- The parameter of `build`, with its type. A presence field has none, its mask says it all. -/
def buildParameter? (f : FieldPlan) : Option (String × String) :=
  if f.field.isPresence then none
  else if f.isConditional then some (f.parameter, s!"Option<{f.type.parameterType}>")
  else some (f.parameter, f.type.parameterType)

end FieldPlan

namespace ItemPlan

/-- The number of the field that is a mask. -/
def maskField (fields : List Field) (slot : Nat) : Nat :=
  (fields.findIdx? (·.slot == some slot)).getD 0

/-- The types of some fields, up to the first that refers to nothing. -/
def fieldTypes (s : Schema) (names : ItemNames) : List Field → Except Error (List FieldType)
  | [] => .ok []
  | f :: rest =>
    match FieldType.ofKind s names f.kind with
    | .error e => .error e
    | .ok type => (fieldTypes s names rest).map (type :: ·)

/-- A field from its parts. -/
def planField (fields : List Field) (a : Argument) (f : Field) (type : FieldType)
    (accessor : String) : FieldPlan :=
  ⟨a, f, type, accessor, f.gate.map fun g => (maskField fields g.slot, g)⟩

/-- The item of a combinator. -/
def ofCombinator (s : Schema) (names : ItemNames) (c : Combinator) : Except Error ItemPlan :=
  (fieldTypes s names c.fields).map fun types =>
    let arguments := c.declaration.arguments
    let plans := (arguments.zip (c.fields.zip (types.zip
      (accessors (arguments.map Argument.name))))).map
      fun (a, f, type, accessor) => planField c.fields a f type accessor
    ⟨c, names.struct c, plans⟩

/-- The accessor of the field of a number. -/
def accessorAt (plan : ItemPlan) (index : Nat) : String :=
  (plan.fields[index]?.map FieldPlan.accessor).getD ""

/-- The names of the parameters of `required_size`. -/
def sizeParameters (plan : ItemPlan) : List (String × String) :=
  plan.fields.filterMap FieldPlan.sizeParameter?

/-- The names of the parameters of `build`. -/
def buildParameters (plan : ItemPlan) : List (String × String) :=
  plan.fields.filterMap FieldPlan.buildParameter?

end ItemPlan

/-- The items of some combinators, up to the first with a field that refers to nothing. -/
def planItems (s : Schema) (names : ItemNames) : List Combinator → Except Error (List ItemPlan)
  | [] => .ok []
  | c :: rest =>
    match ItemPlan.ofCombinator s names c with
    | .error e => .error e
    | .ok plan => (planItems s names rest).map (plan :: ·)

end TypeLang.Generate
