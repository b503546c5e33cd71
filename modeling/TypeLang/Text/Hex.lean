/-!
Hexadecimal text: the digits of a number, the two digits of a byte, and the values of digits of
either case. Written digits are lower case.
-/

set_option autoImplicit false
set_option relaxedAutoImplicit false

namespace TypeLang.Text.Hex

/-- The digit that stands for a number below sixteen. -/
def digit (n : Nat) : Char :=
  if n < 10 then Char.ofNat (0x30 + n) else Char.ofNat (0x57 + n)

/-- The number a digit stands for, in either case. -/
def digitValue? (c : Char) : Option Nat :=
  if '0' ≤ c ∧ c ≤ '9' then some (c.toNat - 0x30)
  else if 'a' ≤ c ∧ c ≤ 'f' then some (c.toNat - 0x57)
  else if 'A' ≤ c ∧ c ≤ 'F' then some (c.toNat - 0x37)
  else none

/-- Whether a character is a hexadecimal digit. -/
def isDigit (c : Char) : Bool := (digitValue? c).isSome

/-- The lowest `width` digits of a number, most significant first. -/
def fixed : Nat → Nat → List Char
  | 0, _ => []
  | width + 1, n => fixed width (n / 16) ++ [digit (n % 16)]

/-- The digits of a number without leading zeros. -/
def shortest (n : Nat) : List Char := Nat.toDigits 16 n

/-- A tag or another 32-bit word in eight digits. -/
def word (n : UInt32) : String := String.ofList (fixed 8 n.toNat)

/-- The two digits of a byte. -/
def byte (b : UInt8) : List Char := fixed 2 b.toNat

/-- Bytes as pairs of digits with nothing between them. -/
def compact (bytes : List UInt8) : String := String.ofList (bytes.flatMap byte)

/-- Bytes as pairs of digits with a blank between one byte and the next. -/
def spaced (bytes : List UInt8) : String :=
  " ".intercalate (bytes.map fun b => String.ofList (byte b))

end TypeLang.Text.Hex
