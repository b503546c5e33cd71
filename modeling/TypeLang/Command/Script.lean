import TypeLang.Error

/-!
What a command does, as data. A script reads and writes files and in the end reports: its status,
what it prints, and what it says about its run. Nothing is read or written until a script is
performed.
-/

set_option autoImplicit false
set_option relaxedAutoImplicit false

namespace TypeLang.Command

/-- Where a command reads from. -/
inductive Source
  | input
  | file (path : String)
deriving DecidableEq, Repr

/-- Why a file cannot be read or written. -/
inductive FileFault
  | missing
  | directory
  | other (text : String)
deriving DecidableEq, Repr

/-- What is said about a file that cannot be read or written. -/
def FileFault.message : FileFault → String
  | missing => "No such file or directory (os error 2)"
  | directory => "Is a directory (os error 21)"
  | other text => text

/-- A computation that may read and write files. -/
inductive Script (α : Type)
  | done (value : α)
  | read (source : Source) (next : Except FileFault ByteArray → Script α)
  | write (path text : String) (next : Except FileFault Unit → Script α)

/-- One script and then another that depends on its value. -/
def Script.bind {α β : Type} : Script α → (α → Script β) → Script β
  | done value, f => f value
  | read source next, f => read source fun answer => (next answer).bind f
  | write path text next, f => write path text fun answer => (next answer).bind f

instance : Monad Script where
  pure := .done
  bind := Script.bind

/-- How a command ended: its status, what it printed, and what it said about its run. -/
structure Report where
  status : Nat
  output : String
  remarks : String
deriving DecidableEq, Repr

/-- Why a command gave up, and what led to that. -/
structure Failure where
  message : String
  cause : Option String
deriving DecidableEq, Repr

/-- A text with every line after the first four columns to the right. -/
def indentLines (text : String) : String :=
  String.ofList (text.toList.flatMap fun c => if c = '\n' then "\n    ".toList else [c])

/-- The report of a command that gave up. -/
def Failure.report (f : Failure) : Report :=
  let cause := match f.cause with
    | some text => "\n\nCaused by:\n    " ++ indentLines text
    | none => ""
  ⟨1, "", "Error: " ++ f.message ++ cause ++ "\n"⟩

/-- A script that may give up. -/
abbrev Attempt := ExceptT Failure Script

/-- The report of a script, whether it gives up or not. -/
def Attempt.report (a : Attempt Report) : Script Report := do
  match ← a.run with
  | .ok report => return report
  | .error failure => return failure.report

/-- Gives up for a reason of its own. -/
def giveUp {α : Type} (message : String) : Attempt α := throw ⟨message, none⟩

/-- Gives up if there is an error, and says what was being done. -/
def attempt {ε α : Type} (message : ε → String) (doing : String) : Except ε α → Attempt α
  | .ok value => pure value
  | .error e => throw ⟨doing, some (message e)⟩

/-- The bytes of a source. -/
def readBytes (doing : String) (source : Source) : Attempt ByteArray := do
  attempt FileFault.message doing (← ExceptT.lift (.read source .done))

/-- The text of a source. -/
def readText (doing : String) (source : Source) : Attempt String := do
  match String.fromUTF8? (← readBytes doing source) with
  | some text => return text
  | none => throw ⟨doing, some "stream did not contain valid UTF-8"⟩

/-- The text of a file. -/
def readFile (path : String) : Attempt String := readText ("reading " ++ path) (.file path)

/-- Writes a file. -/
def writeFile (path text : String) : Attempt Unit := do
  attempt FileFault.message ("writing " ++ path) (← ExceptT.lift (.write path text .done))

end TypeLang.Command
