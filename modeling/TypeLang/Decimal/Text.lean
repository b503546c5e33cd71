import TypeLang.Decimal.Shortest

/-!
Two texts of a double. Displayed, it is positional whatever its size. In diagnostics it keeps a
digit after the point and turns to powers of ten when it is very large or very small.
-/

set_option autoImplicit false
set_option relaxedAutoImplicit false

namespace TypeLang

/-- What a text of a decimal looks like: the exponents of the leading digit that are written
positionally, and the least number of digits after the point. -/
structure DecimalFormat where
  positional : Int → Bool
  places : Nat

namespace DecimalFormat

/-- Every number is written out in full. -/
def display : DecimalFormat := ⟨fun _ => true, 0⟩

/-- Numbers from `10 ^ -4` to below `10 ^ 16` are written out, with a digit after the point. -/
def diagnostic : DecimalFormat := ⟨fun e => -4 ≤ e && e < 16, 1⟩

end DecimalFormat

namespace Decimal

/-- The digits as characters. -/
def digitText (d : Decimal) : List Char := Nat.toDigits 10 d.digits

/-- The exponent of the leading digit. -/
def leadingExponent (d : Decimal) : Int := d.exponent + d.digitText.length - 1

/-- The digits before and after the point of a number written out in full. -/
def split (d : Decimal) : List Char × List Char :=
  let digits := d.digitText
  if 0 ≤ d.exponent then (digits ++ List.replicate d.exponent.toNat '0', [])
  else
    let places := (-d.exponent).toNat
    let padded := List.replicate (places + 1 - digits.length) '0' ++ digits
    (padded.take (padded.length - places), padded.drop (padded.length - places))

/-- Written out in full, with at least `places` digits after the point. -/
def positionalText (d : Decimal) (places : Nat) : List Char :=
  let (whole, fraction) := d.split
  let fraction := fraction ++ List.replicate (places - fraction.length) '0'
  if fraction.isEmpty then whole else whole ++ '.' :: fraction

/-- One digit before the point, the rest after it, and the power of ten. -/
def scientificText (d : Decimal) : List Char :=
  let power := 'e' :: (toString d.leadingExponent).toList
  match d.digitText with
  | [] => power
  | [digit] => digit :: power
  | digit :: rest => digit :: '.' :: rest ++ power

/-- The text of a decimal without a sign. -/
def text (d : Decimal) (format : DecimalFormat) : List Char :=
  if d.digits = 0 ∨ format.positional d.leadingExponent then d.positionalText format.places
  else d.scientificText

end Decimal

/-- The text of a double. The sign of a zero is kept, that of a not-a-number is not. -/
def Double.text (x : Double) (format : DecimalFormat) : String :=
  if x.isNaN then "NaN"
  else
    let magnitude := if x.isInfinite then "inf".toList else (Decimal.ofDouble x).text format
    String.ofList (if x.isNegative then '-' :: magnitude else magnitude)

end TypeLang
