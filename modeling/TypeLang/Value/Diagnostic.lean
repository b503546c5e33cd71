import TypeLang.Decimal.Text
import TypeLang.Text.Quoted
import TypeLang.Value.Basic

/-!
How diagnostics show values: a word for the type of the value, and its content in brackets.
-/

set_option autoImplicit false
set_option relaxedAutoImplicit false

namespace TypeLang

/-- Texts between square brackets. -/
def bracketed (items : List String) : String := "[" ++ ", ".intercalate items ++ "]"

/-- Bytes as decimal numbers between square brackets. -/
def byteList (bytes : List UInt8) : String := bracketed (bytes.map fun b => toString b.toNat)

/-- An optional tag. -/
def tagText : Option UInt32 → String
  | some tag => "Some(" ++ toString tag.toNat ++ ")"
  | none => "None"

mutual

/-- A value as diagnostics show it. -/
def Value.diagnostic : Value → String
  | .int x => "Int(" ++ toString x.toInt ++ ")"
  | .long x => "Long(" ++ toString x.toInt ++ ")"
  | .double x => "Double(" ++ x.text .diagnostic ++ ")"
  | .int128 x => "Int128(" ++ byteList x.toList ++ ")"
  | .int256 x => "Int256(" ++ byteList x.toList ++ ")"
  | .bytes data => "Bytes(" ++ byteList data.data.toList ++ ")"
  | .mask bits => "Flags(" ++ toString bits.toNat ++ ")"
  | .bool b => "Bool(" ++ toString b ++ ")"
  | .vector items => "Vector(" ++ bracketed (Value.itemDiagnostics items) ++ ")"
  | .object ⟨name, tag, fields⟩ =>
    "Object(Object \x7b name: " ++ Text.quoted name ++ ", tag: " ++ tagText tag ++
      ", fields: " ++ bracketed (Value.fieldDiagnostics fields) ++ " \x7d)"
  | .null => "Null"

/-- The items of a vector as diagnostics show them. -/
def Value.itemDiagnostics : List Value → List String
  | [] => []
  | v :: rest => v.diagnostic :: Value.itemDiagnostics rest

/-- The fields of an object as diagnostics show them. -/
def Value.fieldDiagnostics : List (String × Value) → List String
  | [] => []
  | (name, v) :: rest =>
    ("(" ++ Text.quoted name ++ ", " ++ v.diagnostic ++ ")") :: Value.fieldDiagnostics rest

end

end TypeLang
