import TypeLang.Text.Hex
import TypeLang.Text.Printable

/-!
Quoted text, as diagnostics show names and byte strings: between double quotes, with a backslash
before a quote or a backslash, letters for the common controls, and code points in braces for
every other character that would not be seen.
-/

set_option autoImplicit false
set_option relaxedAutoImplicit false

namespace TypeLang.Text

/-- A code point between braces, in as few digits as it has. -/
def codePoint (c : Char) : List Char :=
  ['\\', 'u', '\x7b'] ++ Hex.shortest c.toNat ++ ['\x7d']

/-- How one character is written between quotes. -/
def escape (c : Char) : List Char :=
  if c = '\x00' then ['\\', '0']
  else if c = '\t' then ['\\', 't']
  else if c = '\r' then ['\\', 'r']
  else if c = '\n' then ['\\', 'n']
  else if c = '\\' ∨ c = '"' then ['\\', c]
  else if isExtending c || !isPrintable c then codePoint c
  else [c]

/-- A text between double quotes. -/
def quoted (text : String) : String :=
  String.ofList ('"' :: text.toList.flatMap escape ++ ['"'])

end TypeLang.Text
