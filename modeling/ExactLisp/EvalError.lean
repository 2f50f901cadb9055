import ExactLisp.Value.Basic

/-!
# Evaluation errors

One constructor for each cause; the wording stands in one function. Running out of the depth allowed
for nested calls is not an error of the program, and is kept apart from all of them.
-/

namespace ExactLisp

/-- What an operation requires of an argument. -/
inductive Requirement where
  | list
  | nonEmptyList
  | function
  | number
  deriving DecidableEq, Repr

/-- The requirement as error messages name it. -/
def Requirement.message : Requirement → String
  | list => "list"
  | nonEmptyList => "non-empty list"
  | function => "function"
  | number => "number"

/-- Why evaluation fails. -/
inductive EvalError where
  /-- No frame in reach binds the name. -/
  | undefinedSymbol (name : String)
  /-- A function is called with a number of arguments that it does not take. -/
  | arityMismatch (function : String) (expected : Arity) (actual : Nat)
  /-- An argument is of the wrong kind. -/
  | typeMismatch (operation : String) (expected : Requirement) (actual : Kind)
  /-- The first item or the rest of an empty list is asked for. -/
  | emptyList (operation : String)
  /-- The special form cannot stand inside the body of a function. -/
  | unsupportedForm (form : SpecialForm)
  /-- The special form cannot stand inside quoted data. -/
  | notData (form : SpecialForm)
  /-- A comma outside of quoted data. -/
  | unquoteOutsideQuote
  /-- A quotient with divisor zero. -/
  | divisionByZero
  /-- A compiled body reads an argument that was not passed. -/
  | missingArgument (index count : Nat)
  /-- A forward reference is used while it refers to no function. -/
  | unresolvedFunction (name : String)
  deriving DecidableEq, Repr

/-- The text of an evaluation error. -/
def EvalError.message : EvalError → String
  | undefinedSymbol name => "Undefined symbol: " ++ name
  | arityMismatch function expected actual =>
    "Arity mismatch in " ++ function ++ ": expected " ++ expected.display ++ " arguments, got " ++
      toString actual
  | typeMismatch operation expected actual =>
    "Type error in " ++ operation ++ ": expected " ++ expected.message ++ ", got " ++ actual.name
  | emptyList operation =>
    "Type error in " ++ operation ++ ": expected non-empty list, got empty list"
  | unsupportedForm form => form.name ++ " is not implemented inside lambda body"
  | notData form => "Malformed quote: " ++ form.name ++ " cannot appear inside quoted data"
  | unquoteOutsideQuote => "Malformed quote: unquote outside of quote"
  | divisionByZero => "Division by zero"
  | missingArgument index count =>
    "Internal error: parameter " ++ toString index ++ " out of range for " ++ toString count ++
      " arguments"
  | unresolvedFunction name =>
    "Internal error: function " ++ name ++ " called before its definition was completed"

/-- Why an evaluation has no value. -/
inductive Failure where
  /-- The program is in error. -/
  | error (cause : EvalError)
  /-- Calls are nested more deeply than was allowed; nothing is said about the program. -/
  | outOfDepth
  deriving DecidableEq, Repr

/-- The text of a failure. -/
def Failure.message : Failure → String
  | error cause => cause.message
  | outOfDepth => "Call depth exceeded"

namespace Value

/-- The items of a list; `nil` reads as the empty list. -/
def asList (operation : String) : Value → Except EvalError (List Value)
  | list items => .ok items
  | nil => .ok []
  | other => .error (.typeMismatch operation .list other.kind)

/-- The items of a list that has a first one. Here `nil` is no list. -/
def asNonEmptyList (operation : String) : Value → Except EvalError (Value × List Value)
  | list (head :: tail) => .ok (head, tail)
  | list [] => .error (.emptyList operation)
  | other => .error (.typeMismatch operation .nonEmptyList other.kind)

/-- The function that a value is. -/
def asFunction (operation : String) : Value → Except EvalError Function
  | function callee => .ok callee
  | other => .error (.typeMismatch operation .function other.kind)

end Value

end ExactLisp
