import ExactLisp.Decimal.Literal

/-!
# Words

A word is a number, a boolean, `nil` or a symbol. The literals are recognised by their whole text;
every other run of word characters is a symbol, however much its beginning looks like a literal.
-/

namespace ExactLisp

/-- What a run of word characters stands for. -/
inductive Word where
  | decimal (literal : DecimalLiteral)
  | integer (literal : IntegerLiteral)
  | boolean (value : Bool)
  | nil
  | symbol
  deriving DecidableEq, Repr

/-- The booleans, by name. -/
def booleanOfName? (name : String) : Option Bool :=
  if name = "#t" ∨ name = "true" ∨ name = "t" then some true
  else if name = "#f" ∨ name = "false" then some false
  else none

/-- Classifies a run of word characters. -/
def Word.ofRun (run : List Char) : Word :=
  match DecimalLiteral.parse? run with
  | some literal => .decimal literal
  | none =>
    match IntegerLiteral.parse? run with
    | some literal => .integer literal
    | none =>
      let name := String.ofList run
      match booleanOfName? name with
      | some value => .boolean value
      | none => if name = "nil" then .nil else .symbol

end ExactLisp
