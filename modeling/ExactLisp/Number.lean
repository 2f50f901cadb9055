import ExactLisp.EvalError

/-!
# Numbers

Exact arithmetic on integers and rational numbers. Integers stay integers as long as every operand
is one; as soon as a float is involved the result is a float. A quotient is always a float.
-/

namespace ExactLisp

/-- An exact number that remembers whether it is an integer or a float. -/
inductive Number where
  | integer (value : Int)
  | float (value : Rat)
  deriving DecidableEq, Repr

namespace Number

/-- The number that a value is. -/
def ofValue (operation : String) : Value → Except EvalError Number
  | .integer value => .ok (integer value)
  | .float value => .ok (float value)
  | other => .error (.typeMismatch operation .number other.kind)

/-- The numbers that all values of a list are; the first other value is the error. -/
def ofValues (operation : String) (values : List Value) : Except EvalError (List Number) :=
  values.mapM (ofValue operation)

/-- A number as a value. -/
def toValue : Number → Value
  | integer value => .integer value
  | float value => .float value

/-- A number as a rational number. -/
def toRat : Number → Rat
  | integer value => value
  | float value => value

/-- Whether a number is zero. -/
def isZero : Number → Bool
  | integer value => value == 0
  | float value => value == 0

/-- The opposite of a number, of the same kind. -/
def negate : Number → Number
  | integer value => integer (-value)
  | float value => float (-value)

/-- The sum of two numbers. -/
def add : Number → Number → Number
  | integer a, integer b => integer (a + b)
  | a, b => float (a.toRat + b.toRat)

/-- The difference of two numbers. -/
def subtract : Number → Number → Number
  | integer a, integer b => integer (a - b)
  | a, b => float (a.toRat - b.toRat)

/-- The product of two numbers. -/
def multiply : Number → Number → Number
  | integer a, integer b => integer (a * b)
  | a, b => float (a.toRat * b.toRat)

/-- The quotient of two numbers. -/
def divide (dividend divisor : Number) : Except EvalError Number :=
  if divisor.isZero then .error .divisionByZero
  else .ok (float (dividend.toRat / divisor.toRat))

/-- The order of two numbers by value, across kinds. -/
def order (a b : Number) : Ordering :=
  match a, b with
  | integer a, integer b => compareOfLessAndEq a b
  | a, b => compareOfLessAndEq a.toRat b.toRat

end Number

end ExactLisp
