import TypeLang.Text.Hex
import TypeLang.Declaration.Basic

/-!
The text of a declaration. The type of an argument is marked as bare where its name in upper case
would read as boxed; types within types, and results, have no mark.
-/

set_option autoImplicit false
set_option relaxedAutoImplicit false

namespace TypeLang

/-- The outermost part as text. -/
def TypeTerm.Head.text (head : Head) : String :=
  if head.bang then "!" ++ head.name.text else head.name.text

/-- A type as text, without a mark for bareness. -/
def TypeTerm.text : TypeTerm → String
  | name head => head.text
  | applied head argument => head.text ++ "<" ++ argument.text ++ ">"

/-- Whether an argument of this type needs a mark, because an upper-case name reads as boxed. -/
def TypeTerm.needsMark (t : TypeTerm) : Bool :=
  t.head.bare && !t.head.bang && !t.isMask && startsWith Char.isUpper t.head.name.base

/-- A condition as text. -/
def Condition.text (c : Condition) : String :=
  c.field ++ "." ++ toString c.bit.toNat ++ "?"

/-- An argument as text. -/
def Argument.text (a : Argument) : String :=
  a.name ++ ":" ++ ((a.condition.map Condition.text).getD "") ++
    (if a.type.needsMark then "%" else "") ++ a.type.text

/-- A generic parameter as text. -/
def GenericParameter.text (g : GenericParameter) : String :=
  "\x7b" ++ g.name ++ ":" ++ g.constraint ++ "\x7d"

/-- A declaration as text. -/
def Declaration.text (d : Declaration) : String :=
  let tag := (d.tag.map fun tag => "#" ++ Text.Hex.word tag).getD ""
  let words := d.generics.map GenericParameter.text ++ d.arguments.map Argument.text
  " ".intercalate ((d.qualifiedName ++ tag) :: words) ++ " = " ++ d.result.text ++ ";"

end TypeLang
