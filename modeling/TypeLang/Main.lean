import TypeLang.Command.Dump
import TypeLang.Command.Generate

/-!
The commands at work on the files of the system. The first argument names the command.
-/

set_option autoImplicit false
set_option relaxedAutoImplicit false

namespace TypeLang.Command

/-- Why the system did not read or write a file. -/
def FileFault.ofSystem : IO.Error → FileFault
  | .noFileOrDirectory .. => .missing
  | .inappropriateType .. => .directory
  | e => .other (toString e)

/-- The answer of the system to a request. -/
def asked {α : Type} (action : IO α) : IO (Except FileFault α) := do
  match ← action.toBaseIO with
  | .ok value => return .ok value
  | .error e => return .error (.ofSystem e)

/-- The bytes of a source of the system. -/
def Source.bytes : Source → IO ByteArray
  | .input => do (← IO.getStdin).readBinToEnd
  | .file path => IO.FS.readBinFile path

/-- Performs a script on the files of the system. -/
def Script.perform {α : Type} : Script α → IO α
  | .done value => pure value
  | .read source next => do (next (← asked source.bytes)).perform
  | .write path text next => do (next (← asked (IO.FS.writeFile path text))).perform

/-- The command of a name. -/
def named? : String → Option (List String → Script Report)
  | "tlgen" => some generate
  | "tl_dump" => some dump
  | _ => none

end TypeLang.Command

/-- Runs the command that the first argument names on the arguments behind it. -/
def main (arguments : List String) : IO UInt32 := do
  match arguments with
  | name :: rest =>
    match TypeLang.Command.named? name with
    | some command =>
      let report ← (command rest).perform
      IO.print report.output
      IO.eprint report.remarks
      return UInt32.ofNat report.status
    | none =>
      IO.eprintln ("no command is called " ++ name)
      return 2
  | [] =>
    IO.eprintln "usage: (tlgen | tl_dump) ARGUMENT ..."
    return 2
