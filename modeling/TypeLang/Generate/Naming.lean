import TypeLang.Text.Uppercase

/-!
Names in generated modules. Items are in Pascal case and accessors in snake case; a name that is
reserved or taken already is changed until it is neither.
-/

set_option autoImplicit false
set_option relaxedAutoImplicit false

namespace TypeLang.Generate

/-- Pascal case: dots and underscores go, and what follows them, or stands at the start, is
capitalised. -/
def pascalChars (capitalise : Bool) : List Char → List Char
  | [] => []
  | c :: rest =>
    if c = '.' ∨ c = '_' then pascalChars true rest
    else (if capitalise then Text.upper c else [c]) ++ pascalChars false rest

/-- A name in Pascal case. -/
def pascalCase (name : String) : String := String.ofList (pascalChars true name.toList)

/-- Snake case: capitals become small, with an underscore before those that follow a small letter or
a digit. Only ASCII letters have a case here. -/
def snakeChars (afterSmall : Bool) : List Char → List Char
  | [] => []
  | c :: rest =>
    if c.isUpper then
      (if afterSmall then ['_', c.toLower] else [c.toLower]) ++ snakeChars false rest
    else c :: snakeChars (c.isLower || c.isDigit) rest

/-- A name in snake case. -/
def snakeCase (name : String) : String := String.ofList (snakeChars false name.toList)

/-- The words that a module cannot use as names. -/
def keywords : List String := [
  "as", "async", "await", "break", "const", "continue", "crate", "dyn", "else", "enum", "extern",
  "false", "fn", "for", "gen", "if", "impl", "in", "let", "loop", "match", "mod", "move", "mut",
  "pub", "ref", "return", "self", "Self", "static", "struct", "super", "trait", "true", "try",
  "type", "unsafe", "use", "where", "while", "abstract", "become", "box", "do", "final", "macro",
  "override", "priv", "typeof", "unsized", "virtual", "yield"]

/-- A name that is no keyword. -/
def escapeKeyword (name : String) : String :=
  if keywords.contains name then name ++ "_" else name

/-- A name with a number behind it, except for the first of its kind. The second has number two. -/
def numbered (name : String) : Nat → String
  | 0 => name
  | n + 1 => name ++ toString (n + 2)

/-- The first numbering of a name that is not taken. Among one more numberings than there are names
taken, one is free. -/
def fresh (taken : List String) (name : String) : String :=
  (((List.range (taken.length + 1)).map (numbered name)).find? (!taken.contains ·)).getD name

/-- Chosen names for some others in turn, where every choice knows the names taken before it. -/
def assign (choose : List String → String → String) (taken : List String) :
    List String → List String
  | [] => []
  | name :: rest =>
    let chosen := choose taken name
    chosen :: assign choose (chosen :: taken) rest

end TypeLang.Generate
