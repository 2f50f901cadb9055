/-!
# Decimal text of numbers

Integers are written in full. A rational number is written with at most a given number of fraction
digits: an expansion that ends within them is exact, a longer one is rounded half away from zero.
Trailing zeros are dropped, but one fraction digit always remains, so that the text of a rational
number is never that of an integer.
-/

namespace ExactLisp

/-- A power of ten. -/
def powerOfTen (exponent : Nat) : Nat :=
  Nat.pow 10 exponent

/-- The digits of a natural number, without leading zeros. -/
def naturalDigits (n : Nat) : List Char :=
  Nat.toDigits 10 n

/-- The text of an integer. -/
def integerText (n : Int) : List Char :=
  if n < 0 then '-' :: naturalDigits n.natAbs else naturalDigits n.natAbs

/-- The last `width` digits of `n`, leading zeros included, in front of `rest`. -/
def fixedDigits : Nat → Nat → List Char → List Char
  | 0, _, rest => rest
  | width + 1, n, rest => fixedDigits width (n / 10) (Nat.digitChar (n % 10) :: rest)

/-- The nearest natural number to a non-negative quotient; of two nearest ones, the larger. -/
def roundQuotient (numerator denominator : Nat) : Nat :=
  (2 * numerator + denominator) / (2 * denominator)

/-- The magnitude of a rational number in units of its last shown digit, rounded half away from
zero. -/
def roundedUnits (value : Rat) (digits : Nat) : Nat :=
  roundQuotient (value.num.natAbs * powerOfTen digits) value.den

/-- Drops trailing zeros of a fraction, but keeps one digit. -/
def trimFraction (fraction : List Char) : List Char :=
  match (fraction.reverse.dropWhile (· == '0')).reverse with
  | [] => ['0']
  | trimmed => trimmed

/-- The text of a rational number with at most `digits` fraction digits. The sign is shown only if
the rounded number is not zero.

Any number of digits is allowed here. A formatter may hold the number of digits that it pads to in
16 bits; what one that refuses more than 65535 digits does with them is not modelled. -/
def decimalText (value : Rat) (digits : Nat) : List Char :=
  let units := roundedUnits value digits
  let scale := powerOfTen digits
  let sign := if value < 0 ∧ units ≠ 0 then ['-'] else []
  sign ++ naturalDigits (units / scale) ++
    '.' :: trimFraction (fixedDigits digits (units % scale) [])

end ExactLisp
