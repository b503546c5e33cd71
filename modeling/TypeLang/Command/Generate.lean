import TypeLang.Command.Script
import TypeLang.Generate.Module

/-!
The command that generates the module of a schema. The schema comes from files, one behind the
other, or from the standard input; the module goes to a file or is printed.
-/

set_option autoImplicit false
set_option relaxedAutoImplicit false

namespace TypeLang.Command

/-- What the command is asked for. -/
structure GenerateRequest where
  inputs : List String
  out : Option String
  options : Generate.Options
  checkOnly : Bool
deriving DecidableEq, Repr

namespace GenerateRequest

/-- The request of no arguments at all. -/
def standard : GenerateRequest := ⟨[], none, .standard, false⟩

/-- The request of some more arguments, unless they ask for help. -/
def extend (request : GenerateRequest) : List String → Except Failure (Option GenerateRequest)
  | [] => .ok (some request)
  | "-o" :: rest | "--out" :: rest =>
    match rest with
    | [] => .error ⟨"--out needs a file argument", none⟩
    | path :: rest => extend { request with out := some path } rest
  | "--runtime" :: rest =>
    match rest with
    | [] => .error ⟨"--runtime needs a crate path", none⟩
    | path :: rest =>
      extend { request with options := { request.options with library := path } } rest
  | "--no-docs" :: rest =>
    extend { request with options := { request.options with docs := false } } rest
  | "--check" :: rest => extend { request with checkOnly := true } rest
  | "-h" :: _ | "--help" :: _ => .ok none
  | argument :: rest =>
    if argument.startsWith "-" && argument != "-" then
      .error ⟨"unknown option " ++ backquoted argument, none⟩
    else extend { request with inputs := request.inputs ++ [argument] } rest

end GenerateRequest

/-- A text with another behind it, which ends a line. -/
def appendLines (text more : String) : String :=
  let joined := text ++ more
  if joined.endsWith "\n" then joined else joined ++ "\n"

/-- The schema text that a request asks for. -/
def schemaText (inputs : List String) : Attempt String := do
  if inputs.all (· == "-") then readText "reading schema from stdin" .input
  else return (← inputs.mapM readFile).foldl appendLines ""

/-- How many combinators of each sort a schema has. -/
def schemaSummary (s : Schema) : String :=
  let all := s.combinators.length
  let functions := s.functions.length
  s!"{all} combinator(s): {all - functions} constructor(s), {functions} function(s), " ++
    s!"{s.unions.length} union(s)\n"

/-- What the command says about its use. -/
def generateUsage : String :=
  "usage: tlgen [-o FILE] [--runtime PATH] [--no-docs] [--check] [SCHEMA.tl ...]\n"

/-- Does what a request asks for. -/
def GenerateRequest.perform (request : GenerateRequest) : Attempt Report := do
  let text ← schemaText request.inputs
  let s ← attempt Error.message "compiling schema" (Schema.compile text)
  if request.checkOnly then return ⟨0, "", schemaSummary s⟩
  let code ← attempt Error.message "generating Rust module" (Generate.generate s request.options)
  match request.out with
  | some path =>
    writeFile path code
    return ⟨0, "", ""⟩
  | none => return ⟨0, code, ""⟩

/-- The command. -/
def generate (arguments : List String) : Script Report := Attempt.report do
  match GenerateRequest.standard.extend arguments with
  | .error failure => throw failure
  | .ok none => return ⟨0, "", generateUsage⟩
  | .ok (some request) => request.perform

end TypeLang.Command
