import TypeLang.Decimal.Double

/-!
The shortest decimal that reads back as a given double. The reals that round to a double form an
interval around it; on the grid of decimals with `k` digits the double has two neighbours, and the
first `k` for which one of them lies in the interval gives the answer. Of two such neighbours the
nearer is taken, and the upper one when the double lies midway.
-/

set_option autoImplicit false
set_option relaxedAutoImplicit false

namespace TypeLang

/-- The number `digits · 10 ^ exponent`. -/
structure Decimal where
  digits : Nat
  exponent : Int
deriving DecidableEq, Repr

namespace Decimal

/-- A positive fraction. -/
structure Ratio where
  num : Nat
  den : Nat

/-- The fraction `n · 2 ^ q`. -/
def Ratio.ofScaled (n : Nat) (q : Int) : Ratio := ⟨n <<< q.toNat, 1 <<< (-q).toNat⟩

/-- The fraction times `10 ^ e`. -/
def Ratio.shift (r : Ratio) (e : Int) : Ratio :=
  ⟨r.num * Nat.pow 10 e.toNat, r.den * Nat.pow 10 (-e).toNat⟩

/-- How many decimal digits a number has. -/
def length (n : Nat) : Nat := (Nat.toDigits 10 n).length

/-- The exponent of the leading decimal digit. -/
def Ratio.leading (r : Ratio) : Int :=
  if r.den ≤ r.num then (length (r.num / r.den) : Int) - 1
  else -(length ((r.den - 1) / r.num) : Int)

/-- The reals that round to a double, and the double itself, all in quarter units of its last
place. The ends belong to the interval when the significand is even. -/
structure Interval where
  low : Nat
  value : Nat
  high : Nat
  closed : Bool
  scale : Int

/-- The interval of a finite double other than zero. -/
def Interval.ofDouble (x : Double) : Interval :=
  let value := 4 * x.significand
  { low := if x.lowerNeighbourIsNear then value - 1 else value - 2
    value := value
    high := value + 2
    closed := x.significand % 2 == 0
    scale := x.scale - 2 }

/-- Whether `n · 10 ^ e` lies in the interval. -/
def Interval.covers (i : Interval) (n : Nat) (e : Int) : Bool :=
  let low := (Ratio.ofScaled i.low i.scale).shift (-e)
  let high := (Ratio.ofScaled i.high i.scale).shift (-e)
  if i.closed then low.num ≤ n * low.den && n * high.den ≤ high.num
  else low.num < n * low.den && n * high.den < high.num

/-- The neighbour of the double on the grid of `10 ^ e` that reads back as it, if there is one. -/
def Interval.hit? (i : Interval) (e : Int) : Option Decimal :=
  let value := (Ratio.ofScaled i.value i.scale).shift (-e)
  let below := value.num / value.den
  let above := below + 1
  match i.covers below e, i.covers above e with
  | true, true =>
    if 2 * (value.num % value.den) < value.den then some ⟨below, e⟩ else some ⟨above, e⟩
  | true, false => some ⟨below, e⟩
  | false, true => some ⟨above, e⟩
  | false, false => none

/-- Takes trailing zeros out of the digits, at most `fuel` of them. -/
def strip : Nat → Decimal → Decimal
  | 0, d => d
  | fuel + 1, d =>
    if d.digits % 10 = 0 ∧ d.digits ≠ 0 then strip fuel ⟨d.digits / 10, d.exponent + 1⟩ else d

/-- The shortest decimal that reads back as a finite double, without its sign. Seventeen digits
always suffice. -/
def ofDouble (x : Double) : Decimal :=
  if x.magnitude = 0 then ⟨0, 0⟩
  else
    let interval := Interval.ofDouble x
    let leading := (Ratio.ofScaled interval.value interval.scale).leading
    let hit := (List.range 17).findSome? fun (k : Nat) => interval.hit? (leading - k)
    strip 17 (hit.getD ⟨x.significand, x.scale⟩)

end Decimal

end TypeLang
