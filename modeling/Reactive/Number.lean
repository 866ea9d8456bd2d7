/-!
# Numbers of a model

A number is a whole number or a decimal, and the two never mix: `1` and `1.0` are different
numbers, they are written differently and they compare as different. Arithmetic is not this
module's business. A number is read, compared, stored and written again.

A decimal is kept as a sign, its digits and a power of ten, and in one form only: the digits have
no trailing zero. Zero comes with either sign. The two zeros are written differently, `0.0` and
`-0.0`, but as numbers they are alike, and `unsignedZero` makes them one.

## Main definitions

* `Decimal`, `Decimal.ofScientific` — decimals, and the decimal with some digits and power of ten
* `Decimal.text` — positional up to sixteen digits before the point and down to five places after
  it, with an exponent beyond, and always a mark that tells it from a whole number
* `Number`, `Number.text`, `Number.unsignedZero`
-/

namespace Reactive

/-- The decimal `digits * 10 ^ exponent`, or its negative. The digits have no trailing zero, so that
each decimal has one form; zero has exponent zero. -/
structure Decimal where
  negative : Bool
  digits : Nat
  exponent : Int
  normal : digits % 10 ≠ 0 ∨ (digits = 0 ∧ exponent = 0)
  deriving DecidableEq

namespace Decimal

/-- Zero with a sign. -/
def zero (negative : Bool) : Decimal := ⟨negative, 0, 0, Or.inr ⟨rfl, rfl⟩⟩

/-- The decimal `digits * 10 ^ exponent` with a sign, the trailing zeros of the digits being moved
into the exponent. -/
def ofScientific (negative : Bool) (digits : Nat) (exponent : Int) : Decimal :=
  if h₀ : digits = 0 then zero negative
  else if h : digits % 10 = 0 then ofScientific negative (digits / 10) (exponent + 1)
  else ⟨negative, digits, exponent, Or.inl h⟩
termination_by digits
decreasing_by omega

/-- A decimal in its own form is read back as it is. -/
theorem ofScientific_digits_exponent (d : Decimal) :
    ofScientific d.negative d.digits d.exponent = d := by
  obtain ⟨negative, digits, exponent, h | ⟨rfl, rfl⟩⟩ := d
  · have h₀ : digits ≠ 0 := by rintro rfl; exact h rfl
    rw [ofScientific, dif_neg h₀, dif_neg h]
  · rw [ofScientific, dif_pos rfl]; rfl

/-- The same decimal, but a zero without its sign. -/
def unsignedZero (d : Decimal) : Decimal := if d.digits = 0 then zero false else d

/-- The digits of a decimal without sign, given its significant digits and the number of places
that lie before the point. -/
def digitsText (digits : String) (places : Int) : String :=
  let count : Int := digits.length
  if count ≤ places ∧ places ≤ 16 then
    digits ++ "".pushn '0' (places - count).toNat ++ ".0"
  else if 0 < places ∧ places ≤ 16 then
    String.ofList (digits.toList.take places.toNat) ++ "." ++
      String.ofList (digits.toList.drop places.toNat)
  else if -5 < places ∧ places ≤ 0 then
    "0." ++ "".pushn '0' (-places).toNat ++ digits
  else
    let leading := String.ofList (digits.toList.take 1)
    let rest := String.ofList (digits.toList.drop 1)
    let point := if rest.isEmpty then "" else "." ++ rest
    let sign := if 0 < places then "+" else ""
    leading ++ point ++ "e" ++ sign ++ toString (places - 1)

/-- The text of a decimal: its significant digits, with a point, an exponent or both, so that it
never reads as a whole number. An exponent has a sign, plus or minus. -/
def text (d : Decimal) : String :=
  let sign := if d.negative then "-" else ""
  let body :=
    if d.digits = 0 then "0.0"
    else
      let digits := toString d.digits
      digitsText digits (digits.length + d.exponent)
  sign ++ body

end Decimal

/-- A number of a model. -/
inductive Number where
  /-- A whole number, written without point and exponent. -/
  | whole (value : Int)
  /-- A number written with a point or an exponent. -/
  | decimal (value : Decimal)
  deriving DecidableEq

namespace Number

/-- The same number, but a decimal zero without its sign. -/
def unsignedZero : Number → Number
  | whole n => whole n
  | decimal d => decimal d.unsignedZero

/-- The text of a number, as it is written in a model. -/
def text : Number → String
  | whole n => toString n
  | decimal d => d.text

end Number

end Reactive
