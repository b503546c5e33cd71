import TypeLang.Text.Blank
import TypeLang.Text.Hex
import TypeLang.Value.Diagnostic

/-!
Values laid out for a reader. An object stands over several lines, a field to a line, and nested
values are indented below it. Byte strings that are text are quoted, all others are in hexadecimal.
-/

set_option autoImplicit false
set_option relaxedAutoImplicit false

namespace TypeLang

/-- Whether a character may stand in a quoted byte string. -/
def isShown (c : Char) : Bool := !Text.isControl c || c == '\n' || c == '\t'

/-- A byte string, quoted if it is a text without controls. -/
def shownBytes (data : ByteArray) : String :=
  let hex := "hex(" ++ Text.Hex.spaced data.data.toList ++ ")"
  match String.fromUTF8? data with
  | some text => if text.toList.all isShown then Text.quoted text else hex
  | none => hex

/-- A large integer in hexadecimal, most significant byte first. -/
def shownWord (bytes : List UInt8) : String := "0x" ++ Text.Hex.compact bytes.reverse

/-- A value in one line. Scalars are plain, all else is as in diagnostics. -/
def Value.scalarText : Value → String
  | .int x => toString x.toInt
  | .long x => toString x.toInt
  | .double x => x.text .display
  | .mask bits => "0b" ++ String.ofList (Nat.toDigits 2 bits.toNat)
  | .bool b => toString b
  | .int128 x => shownWord x.toList
  | .int256 x => shownWord x.toList
  | .null => "null"
  | v => v.diagnostic

/-- The name of an object and its tag. -/
def Object.header (o : Object) : String :=
  match o.tag with
  | some tag => o.name ++ "#" ++ Text.Hex.word tag
  | none => o.name

/-- The blanks before a line at some depth. -/
def indentation (depth : Nat) : String := String.ofList (List.replicate (2 * depth) ' ')

/-- What stands first of a value: all of it if it takes one line, otherwise up to the bracket. -/
def Value.opening : Value → String
  | .bytes data => shownBytes data
  | .object o => o.header ++ if o.fields.isEmpty then " \x7b\x7d" else " \x7b"
  | .vector items => if items.isEmpty then "[]" else "["
  | v => v.scalarText

/-- The opening of a nested value behind its label, which stands in for blanks of its own. -/
def labelled (depth : Nat) (label : String) (v : Value) : String :=
  indentation depth ++ label ++ String.ofList (Text.trimStart v.opening.toList)

mutual

/-- The lines of a value behind its opening. -/
def Value.innerLines (depth : Nat) : Value → List String
  | .object ⟨_, _, fields⟩ =>
    if fields.isEmpty then []
    else Value.fieldLines (depth + 1) fields ++ [indentation depth ++ "\x7d"]
  | .vector items =>
    if items.isEmpty then []
    else Value.itemLines (depth + 1) 0 items ++ [indentation depth ++ "]"]
  | _ => []

/-- The items of a vector, each behind its number. -/
def Value.itemLines (depth index : Nat) : List Value → List String
  | [] => []
  | v :: rest =>
    labelled depth ("[" ++ toString index ++ "] ") v ::
      (v.innerLines depth ++ Value.itemLines depth (index + 1) rest)

/-- The fields of an object, each behind its name. -/
def Value.fieldLines (depth : Nat) : List (String × Value) → List String
  | [] => []
  | (name, v) :: rest =>
    labelled depth (name ++ ": ") v :: (v.innerLines depth ++ Value.fieldLines depth rest)

end

/-- A value over as many lines as it takes. -/
def Value.dump (depth : Nat) (v : Value) : String :=
  "\n".intercalate ((indentation depth ++ v.opening) :: v.innerLines depth)

/-- An object over as many lines as it takes. -/
def Object.dump (depth : Nat) (o : Object) : String := (Value.object o).dump depth

/-- The first line of a value's dump, without blanks around it. -/
def Value.summary (v : Value) : String :=
  String.ofList (Text.trim (v.opening.toList.takeWhile (· != '\n')))

end TypeLang
