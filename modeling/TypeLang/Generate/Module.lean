import TypeLang.Generate.Item

/-!
Generated modules: an item for every combinator, one for every union, and one for objects of any
type.
-/

set_option autoImplicit false
set_option relaxedAutoImplicit false

namespace TypeLang.Generate

open Code (line block blank)

/-- How a module is to be generated: the path of the library it uses, whether it has documentation,
and its first line. -/
structure Options where
  library : String
  docs : Bool
  header : Option String
deriving DecidableEq, Repr

/-- What is generated unless something else is asked for. -/
def Options.standard : Options := ⟨"tlschema", true, none⟩

/-- The first line of a module that is given no other. -/
def defaultHeader : String := "// Generated by tlgen. Do not edit."

/-- The arms of a union: the struct and the tag of every constructor. -/
def unionArms (names : ItemNames) (g : TypeGroup) : List (String × UInt32) :=
  g.members.map fun c => (names.struct c, c.tag.getD 0)

/-- The arms of the item for objects of any type: the struct and the tag of every combinator that
has one. -/
def anyArms (s : Schema) (names : ItemNames) : List (String × UInt32) :=
  s.combinators.filterMap fun c => c.tag.map fun tag => (names.struct c, tag)

/-- The arm for tags that no constructor has. -/
def unknownArm : Code := line "tag => Err(rt::TlError::UnknownConstructor \x7b tag \x7d),"

/-- A choice by the tag in the bytes. -/
def dispatch (arms : List Code) : Code :=
  block "match layout::read_u32(buf, offset)?" (arms ++ [unknownArm])

/-- The arm that measures an object by its struct. -/
def sizeArm (arm : String × UInt32) : Code :=
  line s!"{tagLiteral arm.2} => <{arm.1} as layout::TlRead>::size_of(buf, offset),"

/-- The head of a function that measures. -/
def sizeHead (name : String) : String :=
  s!"fn {name}(buf: &[u8], offset: usize) -> rt::Result<usize>"

/-- The head of a function that reads. -/
def readHead : String := "fn read(buf: &'a [u8], offset: usize) -> rt::Result<(Self, usize)>"

/-- The code of a union. -/
def unionCode (options : Options) (names : ItemNames) (g : TypeGroup) : List Code :=
  let item := names.enum g.name
  let arms := unionArms names g
  let readArm (arm : String × UInt32) : Code :=
    line (s!"{tagLiteral arm.2} => <{arm.1}<'a> as layout::TlRead<'a>>::read(buf, offset)" ++
      s!".map(|(x, n)| ({item}::{arm.1}(x), n)),")
  docs options.docs [s!"Union `{g.name}`: dispatched on the constructor tag."] ++
  [derived,
    block s!"pub enum {item}<'a>" (arms.map fun arm => line s!"{arm.1}({arm.1}<'a>),"),
    blank,
    block s!"impl<'a> {item}<'a>"
      [block "pub fn constructor_tag(&self) -> u32"
        [block "match self" (arms.map fun arm => line s!"{item}::{arm.1}(_) => {arm.1}::TAG,")],
        blank,
        block "pub fn as_bytes(&self) -> &'a [u8]"
          [block "match self" (arms.map fun arm => line s!"{item}::{arm.1}(x) => x.as_bytes(),")]],
    blank,
    block s!"impl<'a> layout::TlRead<'a> for {item}<'a>"
      [block (sizeHead "size_of") [dispatch (arms.map sizeArm)],
        blank,
        block readHead [dispatch (arms.map readArm)]]]

/-- The code for objects of any type. -/
def anyCode (options : Options) (arms : List (String × UInt32)) : List Code :=
  docs options.docs [
    "Size of any boxed object of this schema (constructors and functions),",
    "dispatched on its tag."] ++
  [block ("pub " ++ sizeHead "size_of_any") [dispatch (arms.map sizeArm)], blank] ++
  docs options.docs ["Any boxed object, kept as its tag and raw bytes."] ++
  [derived,
    block "pub struct AnyObject<'a>" [line "buf: &'a [u8],", line "tag: u32,"],
    blank,
    block "impl<'a> AnyObject<'a>"
      [block "pub fn constructor_tag(&self) -> u32" [line "self.tag"],
        blank,
        block "pub fn as_bytes(&self) -> &'a [u8]" [line "self.buf"]],
    blank,
    block "impl<'a> layout::TlRead<'a> for AnyObject<'a>"
      [block (sizeHead "size_of") [line "size_of_any(buf, offset)"],
        blank,
        block readHead
          [line "let size = size_of_any(buf, offset)?;",
            line "let tag = layout::read_u32(buf, offset)?;",
            line "Ok((AnyObject \x7b buf: &buf[offset..offset + size], tag \x7d, size))"]]]

/-- The lines before the first item. -/
def preamble (options : Options) : List Code :=
  [line (options.header.getD defaultHeader),
    line ("#![allow(dead_code, unused_imports, unused_mut, unused_assignments, " ++
      "unused_variables, clippy::all)]"),
    blank, line s!"use {options.library} as rt;", line "use rt::layout;",
    line "use rt::layout::\x7bTlBareRead as _, TlRead as _, TlWrite as _\x7d;"]

/-- The module of a schema. -/
def generate (s : Schema) (options : Options) : Except Error String :=
  let names := ItemNames.ofSchema s
  (planItems s names s.combinators).map fun plans =>
    Code.render (preamble options ++
      plans.flatMap (fun plan => blank :: plan.code options.docs) ++
      s.unions.flatMap (fun g => blank :: unionCode options names g) ++
      blank :: anyCode options (anyArms s names))

end TypeLang.Generate
