import Reactive.Number

/-!
# The decimals that 64 bits hold

A decimal is held in 64 bits: a sign, 53 binary digits and a power of two. Of all the decimals
that lie nearer to such a number than to any other, the shortest stands for it, and of several
shortest ones the nearest.

The number that a numeral denotes is found in two steps, each of which is rounded: the digits are
taken as a number of 53 binary digits, which is then multiplied with a power of ten or divided by
one. For up to fifteen digits and a power of ten up to `10 ^ 22` both are exact or rounded once.

## Main definitions

* `Decimal.Interval`, `Decimal.Interval.simplest` — the shortest decimal between two bounds
* `Decimal.shortest` — the decimal of a pattern of 64 bits
* `Decimal.nearest?` — the decimal of a numeral
* `Number.ofDigits?` — the number of a numeral without point and exponent
-/

namespace Reactive

namespace Decimal

/-! ### The shortest decimal of an interval -/

/-- A value with a bound on either side, all in units of the same power of ten. -/
structure Interval where
  low : Nat
  value : Nat
  high : Nat
  /-- Do the bounds belong to the interval? -/
  closed : Bool

namespace Interval

/-- Does a number of units belong to the interval? -/
def holds (i : Interval) (n : Nat) : Bool :=
  if i.closed then i.low ≤ n && n ≤ i.high else i.low < n && n < i.high

/-- The multiple of `step` in the interval that is nearest to the value. Of two equally near ones
it is the even multiple. -/
def multiple? (i : Interval) (step : Nat) : Option Nat :=
  let count := i.value / step
  let below := count * step
  let above := (count + 1) * step
  if i.holds below then
    if i.holds above then
      if i.value - below < above - i.value then some below
      else if above - i.value < i.value - below then some above
      else some (if count % 2 = 0 then below else above)
    else some below
  else if i.holds above then some above
  else none

/-- The number of units in the interval that ends in the most zeros. -/
def simplest (i : Interval) : Nat :=
  let places := (Nat.toDigits 10 i.value).length
  ((List.range places).reverse.findSome? fun n => i.multiple? (Nat.pow 10 n)).getD i.value

end Interval

/-! ### Patterns of bits -/

/-- The decimal of the magnitude that 64 bits hold. The interval around it ends halfway to its
neighbours, in quarters of their distance; below a power of two the neighbours are nearer by half.
Its ends belong to it if its last binary digit is zero. -/
def shortest (negative : Bool) (bits : UInt64) : Decimal :=
  let scale : Nat := bits.toNat / Nat.pow 2 52 % Nat.pow 2 11
  let fraction := bits.toNat % Nat.pow 2 52
  let significand := if scale = 0 then fraction else Nat.pow 2 52 + fraction
  let power : Int := (max scale 1 : Nat) - 1077
  let unit := if 0 ≤ power then Nat.pow 2 power.toNat else Nat.pow 5 (-power).toNat
  let gap := if fraction = 0 ∧ 1 < scale then 1 else 2
  let interval : Interval :=
    { low := (4 * significand - gap) * unit
      value := 4 * significand * unit
      high := (4 * significand + 2) * unit
      closed := significand % 2 = 0 }
  if significand = 0 then zero negative
  else ofScientific negative interval.simplest (min power 0)

/-! ### Numerals -/

/-- Leaves out digits at the end until the others make a number below `2 ^ 64`. -/
def clip (digits : Nat) (exponent : Int) : Nat × Int :=
  if digits < UInt64.size then (digits, exponent) else clip (digits / 10) (exponent + 1)
termination_by digits
decreasing_by
  have : 0 < UInt64.size := by decide
  omega

/-- A power of ten, up to the largest that 64 bits hold. -/
def powerOfTen (exponent : Nat) : Float := Float.ofScientific 1 false (min exponent 308)

/-- Divides by a power of ten, in more steps than one if 64 bits do not hold that power. -/
def divideDown (f : Float) (exponent : Nat) : Float :=
  if exponent ≤ 308 then f / powerOfTen exponent
  else if f == 0 then f
  else divideDown (f / powerOfTen 308) (exponent - 308)
termination_by exponent
decreasing_by omega

/-- The decimal of the numeral `digits * 10 ^ exponent` with a sign. There is none if the magnitude
is beyond what 64 bits hold. -/
def nearest? (negative : Bool) (digits : Nat) (exponent : Int) : Option Decimal :=
  let (digits, exponent) := clip digits exponent
  let f := Float.ofNat digits
  if digits = 0 then some (zero negative)
  else if exponent < 0 then some (shortest negative (divideDown f (-exponent).toNat).toBits)
  else if 308 < exponent then none
  else
    let g := f * powerOfTen exponent.toNat
    if g.isFinite then some (shortest negative g.toBits) else none

end Decimal

/-- The number of a numeral without point and exponent: a whole number, if 64 bits hold it, with a
sign or without. A numeral beyond that denotes a decimal, and so does a zero with a minus. -/
def Number.ofDigits? (negative : Bool) (digits : Nat) : Option Number :=
  if negative = false ∧ digits < UInt64.size then some (.whole digits)
  else if negative = true ∧ 0 < digits ∧ digits ≤ UInt64.size / 2 then some (.whole (-digits))
  else (Decimal.nearest? negative digits 0).map .decimal

end Reactive
