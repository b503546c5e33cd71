import TypeLang.Text.Blank
import TypeLang.Text.Numeral

/-!
Bytes typed by hand in hexadecimal. Blanks are ignored wherever they stand, and marks that announce
hexadecimal may stand in front. What remains is cut into pairs of characters, and every pair is the
numeral of a byte.
-/

set_option autoImplicit false
set_option relaxedAutoImplicit false

namespace TypeLang.Text.HexBytes

/-- Why a text is not read as bytes. -/
inductive Fault
  | foreign
  | halfPair
  | badPair (index : Nat)
deriving DecidableEq, Repr

/-- What is said about a text that is not read as bytes. -/
def Fault.message : Fault → String
  | foreign => "input is not hex"
  | halfPair => "odd number of hex digits"
  | badPair index => s!"bad hex at digit {index}: invalid digit found in string"

/-- A text without the marks before it, however many there are. -/
def dropMarks : List Char → List Char
  | '0' :: 'x' :: rest => dropMarks rest
  | text => text

/-- The characters that count: those that are no blanks, without the marks before them. -/
def significant (text : List Char) : List Char := dropMarks (text.filter fun c => !isBlank c)

/-- The bytes of consecutive pairs of characters, the first of which has the given index. -/
def readPairs (index : Nat) : List Char → Except Fault (List UInt8)
  | a :: b :: rest =>
    match Numeral.read? 16 256 [a, b] with
    | none => .error (.badPair index)
    | some n => (readPairs (index + 2) rest).map (UInt8.ofNat n :: ·)
  | _ => .ok []

/-- The bytes that a text stands for. -/
def read (text : List Char) : Except Fault (List UInt8) :=
  let digits := significant text
  if digits.any fun c => 0x7f < c.toNat then .error .foreign
  else if digits.length % 2 = 1 then .error .halfPair
  else readPairs 0 digits

end TypeLang.Text.HexBytes
