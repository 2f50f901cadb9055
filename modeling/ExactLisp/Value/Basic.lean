import ExactLisp.Expr.Basic

/-!
# Values

What programs compute with. Functions are values, and they are compared by identity; so a function
value holds the identity of a function, not its body. Bodies are kept in the store.
-/

namespace ExactLisp

/-- The identity of a frame of bindings. -/
abbrev FrameId := Nat

/-- The identity of a function made by `lambda` or `defun`. -/
abbrev ClosureId := Nat

/-- The identity of a cell that may refer to a function. -/
abbrev CellId := Nat

/-- The operations that are built in. -/
inductive Primitive where
  | car
  | cdr
  | cons
  | list
  | length
  | add
  | subtract
  | multiply
  | divide
  | greater
  | less
  | greaterEqual
  | lessEqual
  | numericEqual
  | same
  | equal
  | negation
  | conjunction
  | disjunction
  | apply
  | map
  | last
  deriving DecidableEq, Repr

/-- A built-in function. Each global frame has builtins of its own: `home` tells them apart. -/
structure Builtin where
  home : FrameId
  name : String
  arity : Arity
  primitive : Primitive
  deriving DecidableEq, Repr

/-- A forward reference to a function whose definition may not be complete. -/
structure Placeholder where
  name : String
  cell : CellId
  deriving DecidableEq, Repr

/-- Everything that can be called. -/
inductive Function where
  | builtin (builtin : Builtin)
  | closure (id : ClosureId)
  | placeholder (placeholder : Placeholder)
  deriving DecidableEq, Repr

/-- The values of the language. Integers and floats are both exact: a float is a rational number. -/
inductive Value where
  | nil
  | boolean (value : Bool)
  | integer (value : Int)
  | float (value : Rat)
  | string (value : String)
  | symbol (name : String)
  | list (items : List Value)
  | function (function : Function)

/-- The kinds of values. -/
inductive Kind where
  | nil
  | boolean
  | integer
  | float
  | string
  | symbol
  | list
  | function
  deriving DecidableEq, Repr

/-- The name of a kind. -/
def Kind.name : Kind → String
  | nil => "nil"
  | boolean => "boolean"
  | integer => "integer"
  | float => "float"
  | string => "string"
  | symbol => "symbol"
  | list => "list"
  | function => "function"

namespace Value

/-- The value that a literal denotes. -/
def ofLiteral : Literal → Value
  | .nil => nil
  | .boolean value => boolean value
  | .integer value => integer value
  | .float value => float value
  | .string value => string value

/-- The kind of a value. -/
def kind : Value → Kind
  | nil => .nil
  | boolean _ => .boolean
  | integer _ => .integer
  | float _ => .float
  | string _ => .string
  | symbol _ => .symbol
  | list _ => .list
  | function _ => .function

/-- Whether a value counts as true in a test. The false ones are `nil`, `#f`, the two zeros, the
empty string and the empty list. -/
def isTruthy : Value → Bool
  | nil => false
  | boolean value => value
  | integer value => value != 0
  | float value => value != 0
  | string value => !value.isEmpty
  | symbol _ => true
  | list items => !items.isEmpty
  | function _ => true

/-- Whether a value is an integer or a float. -/
def isNumber : Value → Bool
  | integer _ | float _ => true
  | _ => false

/-- The list that quotes a datum. -/
def quoted (datum : Value) : Value :=
  list [symbol "quote", datum]

end Value

end ExactLisp
