import TypeLang.Text.Hex

/-!
Unsigned numerals in a radix up to sixteen. A numeral may carry one plus sign, needs a digit, and
has to stay below a bound.
-/

set_option autoImplicit false
set_option relaxedAutoImplicit false

namespace TypeLang.Text.Numeral

/-- The value of a run of digits that continues `acc`. -/
def readDigits? (radix : Nat) : Nat → List Char → Option Nat
  | acc, [] => some acc
  | acc, c :: rest =>
    match Hex.digitValue? c with
    | some d => if d < radix then readDigits? radix (acc * radix + d) rest else none
    | none => none

/-- The digits of a numeral, after its sign. -/
def unsigned : List Char → List Char
  | '+' :: digits => digits
  | digits => digits

/-- The value of a numeral, if it is below `bound`. -/
def read? (radix bound : Nat) (text : List Char) : Option Nat :=
  match unsigned text with
  | [] => none
  | digits => (readDigits? radix 0 digits).filter (· < bound)

end TypeLang.Text.Numeral
