/-!
Tokens of schema text, and where they stand. Offsets count the bytes of the encoded text; lines and
columns count from one, and only a line feed ends a line.
-/

set_option autoImplicit false
set_option relaxedAutoImplicit false

namespace TypeLang

/-- A place in a text. -/
structure Position where
  offset : Nat
  line : Nat
  column : Nat
deriving DecidableEq, Repr, Inhabited

namespace Position

/-- The place before the first character. -/
def first : Position := ⟨0, 1, 1⟩

/-- The place behind a character that stands at this one. -/
def after (p : Position) (c : Char) : Position :=
  if c = '\n' then ⟨p.offset + c.utf8Size, p.line + 1, 1⟩
  else ⟨p.offset + c.utf8Size, p.line, p.column + 1⟩

/-- The place behind a run of characters that starts at this one. -/
def advance (p : Position) (chars : List Char) : Position := chars.foldl after p

end Position

/-- What a token is. A `number` holds decimal digits, or the hexadecimal digits of a tag. Stray
characters are `punct`. -/
inductive Token.Kind
  | ident | number | hash | colon | bang | question | leftAngle | rightAngle | equals | semicolon
  | leftBrace | rightBrace | percent | punct | sectionMarker | invalid | finish
deriving DecidableEq, Repr, Inhabited

/-- A token, its text and the place of its first character. -/
structure Token where
  kind : Token.Kind
  text : String
  position : Position
deriving DecidableEq, Repr, Inhabited

/-- The token that ends a stream, at a given place. -/
def Token.finishAt (p : Position) : Token := ⟨.finish, "", p⟩

end TypeLang
