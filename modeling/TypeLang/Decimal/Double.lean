/-!
Double-precision numbers as the 64 bits that represent them. Two numbers are the same value of the
type when their bits are; comparing them as numbers is `Double.equals`, under which the two zeros
are equal and nothing equals a not-a-number.
-/

set_option autoImplicit false
set_option relaxedAutoImplicit false

namespace TypeLang

/-- The bits of a double: sign, eleven exponent bits, fifty-two fraction bits. -/
structure Double where
  bits : UInt64
deriving DecidableEq, Repr, Inhabited

namespace Double

/-- Whether the sign bit is set. -/
def isNegative (x : Double) : Bool := 0x8000000000000000 ≤ x.bits.toNat

/-- The bits below the sign. -/
def magnitude (x : Double) : Nat := x.bits.toNat % 0x8000000000000000

/-- The biased exponent. -/
def exponentField (x : Double) : Nat := x.magnitude / 0x10000000000000

/-- The fraction bits. -/
def fractionField (x : Double) : Nat := x.magnitude % 0x10000000000000

/-- Whether the value is a number of infinite magnitude. -/
def isInfinite (x : Double) : Bool := x.magnitude == 0x7ff0000000000000

/-- Whether the value is not a number. -/
def isNaN (x : Double) : Bool := 0x7ff0000000000000 < x.magnitude

/-- Equality of numbers: the zeros are equal, a not-a-number equals nothing. -/
def equals (x y : Double) : Bool :=
  !x.isNaN && !y.isNaN && (x.bits == y.bits || (x.magnitude == 0 && y.magnitude == 0))

/-- The integer `m` of a finite magnitude `m · 2 ^ q`. -/
def significand (x : Double) : Nat :=
  if x.exponentField = 0 then x.fractionField else x.fractionField + 0x10000000000000

/-- The exponent `q` of a finite magnitude `m · 2 ^ q`. -/
def scale (x : Double) : Int :=
  if x.exponentField = 0 then -1074 else (x.exponentField : Int) - 1075

/-- Whether the next smaller double is only half as far away as the next larger one. -/
def lowerNeighbourIsNear (x : Double) : Bool :=
  x.fractionField == 0 && 1 < x.exponentField

end Double

end TypeLang
