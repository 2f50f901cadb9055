import ExactLisp.Decimal.Render
import ExactLisp.Reader.Quoted
import ExactLisp.Store.Basic

/-!
# The text of values

Values are written the way they are read, as far as they can be read: strings with their escapes,
lists in parentheses, floats with at most a given number of fraction digits at every depth. A
function has no readable form; its text tells its name.
-/

namespace ExactLisp

/-- The text of a function made by `lambda` or `defun`. -/
def Closure.display (closure : Closure) : String :=
  match closure.name with
  | some name => "#<closure " ++ name ++ ">"
  | none => "#<lambda>"

namespace Store

/-- The text of the function with an identity. -/
def displayClosure (store : Store) (id : ClosureId) : String :=
  match store.closure? id with
  | some closure => closure.display
  | none => "#<lambda>"

/-- The text of a function. A forward reference is shown as what it refers to. -/
def displayFunction (store : Store) : Function → String
  | .builtin builtin => "#<builtin " ++ builtin.name ++ ">"
  | .closure id => store.displayClosure id
  | .placeholder placeholder =>
    match store.referent? placeholder with
    | some id => store.displayClosure id
    | none => "#<placeholder " ++ placeholder.name ++ ">"

/-- The name of a function. A forward reference has a name of its own. -/
def functionName? (store : Store) : Function → Option String
  | .builtin builtin => some builtin.name
  | .closure id => (store.closure? id).bind (·.name)
  | .placeholder placeholder => some placeholder.name

end Store

namespace Value

mutual

/-- The characters of a value's text, floats with at most `digits` fraction digits. -/
def text (store : Store) (digits : Nat) : Value → List Char
  | nil => "nil".toList
  | boolean true => "#t".toList
  | boolean false => "#f".toList
  | integer value => integerText value
  | float value => decimalText value digits
  | string value => quotedText value.toList
  | symbol name => name.toList
  | list [] => "()".toList
  | list (head :: tail) => '(' :: head.text store digits ++ tailText store digits tail
  | function callee => (store.displayFunction callee).toList

/-- The rest of a list after its first item, each item behind a space. -/
def tailText (store : Store) (digits : Nat) : List Value → List Char
  | [] => [')']
  | head :: tail => ' ' :: head.text store digits ++ tailText store digits tail

end

/-- Fraction digits shown when nothing else is asked for. -/
def defaultDigits : Nat := 64

/-- The text of a value, floats with at most `digits` fraction digits. -/
def display (store : Store) (value : Value) (digits : Nat) : String :=
  String.ofList (value.text store digits)

end Value

end ExactLisp
