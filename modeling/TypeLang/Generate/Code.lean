/-!
Code as lines and blocks. A block has a head, a body between braces, and no brace of its own in
either; rendering indents the body.
-/

set_option autoImplicit false
set_option relaxedAutoImplicit false

namespace TypeLang.Generate

/-- A line of code, or lines between braces behind a head. -/
inductive Code
  | line (text : String)
  | block (head : String) (body : List Code)

namespace Code

/-- An empty line. -/
def blank : Code := line ""

/-- A line at some depth. An empty line stays empty. -/
def indented (depth : Nat) (text : String) : String :=
  if text.isEmpty then "" else String.ofList (List.replicate (4 * depth) ' ') ++ text

mutual

/-- The lines of code at some depth. -/
def lines (depth : Nat) : Code → List String
  | line text => [indented depth text]
  | block head body =>
    indented depth (head ++ " \x7b") :: allLines (depth + 1) body ++ [indented depth "\x7d"]

/-- The lines of several pieces of code. -/
def allLines (depth : Nat) : List Code → List String
  | [] => []
  | c :: rest => lines depth c ++ allLines depth rest

end

/-- Code as text, with every line ended. -/
def render (code : List Code) : String :=
  String.join ((allLines 0 code).map (· ++ "\n"))

end Code

end TypeLang.Generate
