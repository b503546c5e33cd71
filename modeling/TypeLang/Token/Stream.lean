import TypeLang.Token.Lexeme

/-!
The tokens of a text, and a cursor that moves over tokens. A token stands where the pieces before it
end. A cursor stops for good at the first token that finishes its stream.
-/

set_option autoImplicit false
set_option relaxedAutoImplicit false

namespace TypeLang

namespace Token

/-- The tokens among pieces that start at a place, and behind them the token that finishes the
stream. -/
def ofPieces (p : Position) : List Piece → List Token
  | [] => [finishAt p]
  | piece :: rest =>
    let behind := ofPieces (p.advance piece.chars) rest
    match piece.kind? with
    | some kind => ⟨kind, String.ofList piece.chars, p⟩ :: behind
    | none => behind

/-- The tokens of a schema text. -/
def tokenize (source : String) : List Token :=
  ofPieces Position.first (Piece.ofText false source.toList)

end Token

/-- A place in a stream of tokens: what lies ahead, and the token that finishes the stream. -/
structure Cursor where
  ahead : List Token
  stop : Token
deriving DecidableEq, Repr

namespace Cursor

/-- The token that finishes a list: the first of its kind, or one at the place of the last token. -/
def stopOf (tokens : List Token) : Token :=
  match tokens.find? (·.kind == .finish) with
  | some stop => stop
  | none => Token.finishAt ((tokens.getLast?.map (·.position)).getD ⟨0, 0, 0⟩)

/-- A cursor before the first of some tokens. Tokens behind a finishing one are out of reach. -/
def ofTokens (tokens : List Token) : Cursor :=
  ⟨tokens.takeWhile (·.kind != .finish), stopOf tokens⟩

/-- A cursor before the first token of a text. -/
def ofText (source : String) : Cursor := ofTokens (Token.tokenize source)

/-- The token the cursor stands before. -/
def peek (c : Cursor) : Token := c.ahead.headD c.stop

/-- Whether no token is left but the one that finishes the stream. -/
def atEnd (c : Cursor) : Bool := c.ahead.isEmpty

/-- Takes a token. The finishing token can be taken any number of times. -/
def next (c : Cursor) : Token × Cursor := (c.peek, { c with ahead := c.ahead.tail })

end Cursor

end TypeLang
