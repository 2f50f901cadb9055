import ExactLisp.Decimal.Render
import ExactLisp.Reader.Token

/-!
# Decimal literals

Numbers as they are written: an optional sign, digits, and for decimals a fraction, an exponent, or
both. A decimal literal denotes the exact rational number that its text spells; nothing is rounded.
-/

namespace ExactLisp

/-- Splits an optional sign off a text; the flag tells whether the sign is negative. -/
def splitSign : List Char → Bool × List Char
  | '-' :: rest => (true, rest)
  | '+' :: rest => (false, rest)
  | rest => (false, rest)

/-- The natural number that a run of decimal digits denotes. -/
def digitsValue (digits : List Char) : Nat :=
  Nat.ofDigitChars 10 digits 0

/-- A magnitude with a sign. -/
def signed (negative : Bool) (magnitude : Nat) : Int :=
  if negative then -(magnitude : Int) else magnitude

/-- Whether an integer is a signed 64-bit integer. -/
def fitsInWord (value : Int) : Bool :=
  decide (-9223372036854775808 ≤ value) && decide (value ≤ 9223372036854775807)

/-- An integer literal taken apart. -/
structure IntegerLiteral where
  negative : Bool
  digits : List Char
  deriving DecidableEq, Repr

namespace IntegerLiteral

/-- Takes an integer literal apart: an optional sign and one digit or more. -/
def parse? (run : List Char) : Option IntegerLiteral :=
  let (negative, digits) := splitSign run
  if digits.isEmpty || !digits.all isDigitChar then none else some ⟨negative, digits⟩

/-- The integer that a literal denotes. -/
def value (literal : IntegerLiteral) : Int :=
  signed literal.negative (digitsValue literal.digits)

end IntegerLiteral

/-- A decimal literal taken apart. An absent exponent is zero. -/
structure DecimalLiteral where
  negative : Bool
  whole : List Char
  fraction : List Char
  exponent : Int
  deriving DecidableEq, Repr

/-- Why a literal that fits the grammar denotes no value. -/
inductive LiteralProblem where
  /-- The exponent is not a signed 64-bit integer. -/
  | malformedDecimal
  /-- The exponent is too large in magnitude. -/
  | exponentOutOfRange
  deriving DecidableEq, Repr

/-- The problem as error messages name it. -/
def LiteralProblem.message : LiteralProblem → String
  | malformedDecimal => "malformed float"
  | exponentOutOfRange => "float exponent out of range"

namespace DecimalLiteral

/-- Reads an exponent, mark included, that covers the whole text. -/
def exponent? : List Char → Option Int
  | [] => none
  | mark :: rest =>
    if mark = 'e' ∨ mark = 'E' then (IntegerLiteral.parse? rest).map IntegerLiteral.value
    else none

/--
Takes a decimal literal apart. After the sign and one digit or more there stands either a point,
any number of digits and possibly an exponent, or an exponent alone.
-/
def parse? (run : List Char) : Option DecimalLiteral :=
  let (negative, rest) := splitSign run
  let (whole, rest) := rest.span isDigitChar
  if whole.isEmpty then none
  else
    match rest with
    | '.' :: rest =>
      let (fraction, rest) := rest.span isDigitChar
      if rest.isEmpty then some ⟨negative, whole, fraction, 0⟩
      else (exponent? rest).map fun exponent => ⟨negative, whole, fraction, exponent⟩
    | rest => (exponent? rest).map fun exponent => ⟨negative, whole, [], exponent⟩

/-- Exponents up to this magnitude are accepted. -/
def maxExponent : Nat := 1024

/-- The rational number `significand · 10 ^ exponent`. -/
def scaled (significand exponent : Int) : Rat :=
  if 0 ≤ exponent then (significand * powerOfTen exponent.natAbs : Int)
  else mkRat significand (powerOfTen exponent.natAbs)

/-- The exact value of a literal, unless its exponent is out of range. -/
def value (literal : DecimalLiteral) : Except LiteralProblem Rat :=
  if !fitsInWord literal.exponent then .error .malformedDecimal
  else if maxExponent < literal.exponent.natAbs then .error .exponentOutOfRange
  else
    .ok <| scaled (signed literal.negative (digitsValue (literal.whole ++ literal.fraction)))
      (literal.exponent - literal.fraction.length)

end DecimalLiteral

end ExactLisp
