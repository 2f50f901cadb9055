import ExactLisp.Value.Equality

/-!
# Primitive operations

The operations that are built in, their names and arities, and what they compute. They are ordinary
functions: all arguments are evaluated before the call, so the logical ones do not stop early.

Only `apply` and `map` call other functions; they are given the means to do so.
-/

namespace ExactLisp

/-- Turns an error of the program into a failure of the evaluation. -/
def orFail {α : Type} (result : Except EvalError α) : Except Failure α :=
  result.mapError Failure.error

namespace Primitive

/-- All primitive operations. -/
def all : List Primitive :=
  [car, cdr, cons, list, length, add, subtract, multiply, divide, greater, less, greaterEqual,
    lessEqual, numericEqual, same, equal, negation, conjunction, disjunction, apply, map, last]

/-- The name that an operation is bound to. -/
def name : Primitive → String
  | car => "car"
  | cdr => "cdr"
  | cons => "cons"
  | list => "list"
  | length => "length"
  | add => "+"
  | subtract => "-"
  | multiply => "*"
  | divide => "/"
  | greater => ">"
  | less => "<"
  | greaterEqual => ">="
  | lessEqual => "<="
  | numericEqual => "="
  | same => "eq?"
  | equal => "equal?"
  | negation => "not"
  | conjunction => "and"
  | disjunction => "or"
  | apply => "apply"
  | map => "map"
  | last => "begin"

/-- How many arguments an operation takes. -/
def arity : Primitive → Arity
  | car | cdr | length | negation => .fixed 1
  | cons | divide | greater | less | greaterEqual | lessEqual | numericEqual | same | equal =>
    .fixed 2
  | list | add | multiply | conjunction | disjunction | last => .variadic 0
  | subtract => .range 1 2
  | apply => .variadic 1
  | map => .variadic 2

/-- Compares two numbers and judges their order. -/
def compareNumbers (operation : String) (accepted : Ordering → Bool) (a b : Value) :
    Except EvalError Value := do
  let a ← Number.ofValue operation a
  let b ← Number.ofValue operation b
  return .boolean (accepted (a.order b))

/--
The operations that call no function. The number of arguments is checked before an operation runs,
so the last equation is never used by a builtin that declares the arity of its operation.
-/
def compute (store : Store) : Primitive → List Value → Except EvalError Value
  | car, [value] => Prod.fst <$> value.asNonEmptyList "car"
  | cdr, [value] => (fun items => .list items.2) <$> value.asNonEmptyList "cdr"
  | cons, [head, tail] => (fun items => .list (head :: items)) <$> tail.asList "cons"
  | list, values => .ok (.list values)
  | length, [value] => (fun items => .integer items.length) <$> value.asList "length"
  | add, values => do
    let numbers ← Number.ofValues "+" values
    return (numbers.foldl Number.add (.integer 0)).toValue
  | subtract, [value] => do
    let number ← Number.ofValue "-" value
    return number.negate.toValue
  | subtract, [minuend, subtrahend] => do
    let minuend ← Number.ofValue "-" minuend
    let subtrahend ← Number.ofValue "-" subtrahend
    return (minuend.subtract subtrahend).toValue
  | multiply, values => do
    let numbers ← Number.ofValues "*" values
    return (numbers.foldl Number.multiply (.integer 1)).toValue
  | divide, [dividend, divisor] => do
    let dividend ← Number.ofValue "/" dividend
    let divisor ← Number.ofValue "/" divisor
    let quotient ← dividend.divide divisor
    return quotient.toValue
  | greater, [a, b] => compareNumbers ">" (· == .gt) a b
  | less, [a, b] => compareNumbers "<" (· == .lt) a b
  | greaterEqual, [a, b] => compareNumbers ">=" (· != .lt) a b
  | lessEqual, [a, b] => compareNumbers "<=" (· != .gt) a b
  | numericEqual, [a, b] => compareNumbers "=" (· == .eq) a b
  | same, [a, b] => .ok (.boolean (a.eqv store b))
  | equal, [a, b] => .ok (.boolean (a.equal store b))
  | negation, [value] => .ok (.boolean !value.isTruthy)
  | conjunction, values => .ok (.boolean (values.all Value.isTruthy))
  | disjunction, values => .ok (.boolean (values.any Value.isTruthy))
  | last, values => .ok (values.getLastD .nil)
  | operation, values =>
    .error (.arityMismatch operation.name operation.arity values.length)

/-- The arguments of `apply`: a list contributes its items, anything else itself. -/
def splice (values : List Value) : List Value :=
  values.flatMap fun
    | .list items => items
    | value => [value]

/-- The argument rows of `map`: as many as the longest list has items, with `nil` in place of the
items that a shorter list lacks. -/
def rows (lists : List (List Value)) : List (List Value) :=
  let longest := (lists.map List.length).foldl max 0
  (List.range longest).map fun index => lists.map fun items => items.getD index .nil

/-- Runs an operation; `invoke` calls a function. -/
def run (store : Store) (invoke : Function → List Value → Except Failure Value) :
    Primitive → List Value → Except Failure Value
  | apply, callee :: values => do
    let callee ← orFail (callee.asFunction "apply")
    invoke callee (splice values)
  | map, callee :: values => do
    let callee ← orFail (callee.asFunction "map")
    let lists ← orFail (values.mapM (Value.asList "map"))
    let results ← (rows lists).mapM (invoke callee)
    return .list results
  | operation, values => orFail (operation.compute store values)

end Primitive

/-- The ratio of a circle's circumference to its diameter, to the precision of 53 binary digits. -/
def circleRatio : Rat :=
  mkRat 884279719003555 281474976710656

/-- The bindings of a new global frame: every primitive operation, and `pi`. -/
def globalBindings (home : FrameId) : Bindings :=
  let builtins := Primitive.all.foldl
    (fun bindings primitive => bindings.insert primitive.name
      (.function (.builtin ⟨home, primitive.name, primitive.arity, primitive⟩)))
    Assoc.empty
  builtins.insert "pi" (.float circleRatio)

/-- A new global scope, independent of all others. -/
def Store.addGlobal (store : Store) : Scope × Store :=
  store.addRoot (globalBindings store.frames.size)

end ExactLisp
