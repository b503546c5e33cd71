import TypeLang.Command.Script
import TypeLang.Message.Decode
import TypeLang.Text.HexBytes
import TypeLang.Value.Dump

/-!
The command that shows the objects in a buffer. The buffer is a file, or hexadecimal text from the
arguments or from the standard input; its objects stand one behind the other.
-/

set_option autoImplicit false
set_option relaxedAutoImplicit false

namespace TypeLang.Command

/-- What the command is asked for: whether an object has a line only, what the objects are, the file
that holds them, and the arguments that are left. -/
structure DumpRequest where
  summary : Bool
  type : Option String
  file : Option String
  rest : List String
deriving DecidableEq, Repr

/-- Whether a flag is among the arguments under one of its names, and the arguments without its
first occurrence. -/
def takeFlag (names arguments : List String) : Bool × List String :=
  (arguments.any names.contains, arguments.eraseP names.contains)

/-- The argument behind the first occurrence of an option, and the arguments without both. -/
def takeValue (name : String) : List String → Except Failure (Option String × List String)
  | [] => .ok (none, [])
  | argument :: rest =>
    if argument = name then
      match rest with
      | [] => .error ⟨name ++ " needs an argument", none⟩
      | value :: rest => .ok (some value, rest)
    else (takeValue name rest).map fun (value, rest) => (value, argument :: rest)

/-- The request of some arguments. Asking for more remarks is allowed and changes nothing. -/
def DumpRequest.ofArguments (arguments : List String) : Except Failure DumpRequest := do
  let (_, arguments) := takeFlag ["--verbose", "-v"] arguments
  let (summary, arguments) := takeFlag ["--summary", "-s"] arguments
  let (type, arguments) ← takeValue "--type" arguments
  let (file, arguments) ← takeValue "--file" arguments
  return ⟨summary, type, file, arguments⟩

/-- What the command says about its use. -/
def dumpUsage : String :=
  "usage: tl_dump [--type NAME] [--file PATH] [-s] [-v] SCHEMA.tl [HEX ...]"

/-- The bytes that a hexadecimal text stands for. -/
def readHex (text : String) : Attempt ByteArray :=
  match Text.HexBytes.read text.toList with
  | .ok bytes => return ⟨bytes.toArray⟩
  | .error fault => giveUp fault.message

/-- The bytes that a request asks for, from its file or from its hexadecimal arguments. -/
def dumpBuffer (file : Option String) (digits : List String) : Attempt ByteArray := do
  match file with
  | some path => readBytes ("reading " ++ path) (.file path)
  | none =>
    if digits.isEmpty then readHex (← readText "reading hex from stdin" .input)
    else readHex (" ".intercalate digits)

/-- A number with blanks before it up to six columns. -/
def column (n : Nat) : String := String.ofList ((toString n).toList.leftpad 6 ' ')

/-- The lines of an object at a place. -/
def objectText (summary : Bool) (o : Object) (offset : Nat) : String :=
  if summary then column offset ++ "  " ++ (Value.object o).summary ++ "\n"
  else o.dump 0 ++ "\n"

/-- What is said about bytes that cannot be read. -/
def unreadable (buffer : ByteArray) (offset : Nat) (e : Error) : String :=
  let next := Text.Hex.spaced (buffer.extract offset (offset + 16)).toList
  s!"offset {offset}: {e.message} (next bytes: {next})\n"

/-- The report on the objects in a buffer. -/
def dumpReport (s : Schema) (summary : Bool) (r : Reference) (buffer : ByteArray) : Report :=
  let (objects, failed) := s.stream 0 r buffer #[] 0
  let output := String.join (objects.toList.map fun (o, offset, _) => objectText summary o offset)
  match failed with
  | some (offset, e) => ⟨1, output, unreadable buffer offset e⟩
  | none => ⟨0, output, s!"{objects.size} object(s), {buffer.size} byte(s)\n"⟩

/-- Does what a request asks for. -/
def DumpRequest.perform (request : DumpRequest) : Attempt Report := do
  match request.rest with
  | [] => giveUp dumpUsage
  | path :: digits =>
    let text ← readFile path
    let s ← attempt Error.message "compiling schema" (Schema.compile text)
    let buffer ← dumpBuffer request.file digits
    let reference := match request.type with
      | some name => Reference.named name
      | none => .any
    return dumpReport s request.summary reference buffer

/-- The command. -/
def dump (arguments : List String) : Script Report := Attempt.report do
  match DumpRequest.ofArguments arguments with
  | .error failure => throw failure
  | .ok request => request.perform

end TypeLang.Command
