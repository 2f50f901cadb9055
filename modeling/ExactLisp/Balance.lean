/-!
# Balance of parentheses

How many parentheses of a text are open at its end. Strings and comments do not count; a comment
ends at a line feed. More closing than opening parentheses make the balance negative.
-/

namespace ExactLisp

/-- Where the count stands between two characters. -/
inductive BalanceMode where
  | code
  | text
  /-- Directly after a backslash inside a string. -/
  | escape
  | comment
  deriving DecidableEq, Repr

/-- The state of the count. -/
structure Balance where
  mode : BalanceMode
  depth : Int
  deriving DecidableEq, Repr

namespace Balance

/-- The count before the first character. -/
def initial : Balance := ⟨.code, 0⟩

/-- Takes one character. -/
def step (balance : Balance) (c : Char) : Balance :=
  match balance.mode with
  | .comment => if c = '\n' then { balance with mode := .code } else balance
  | .escape => { balance with mode := .text }
  | .text =>
    if c = '\\' then { balance with mode := .escape }
    else if c = '"' then { balance with mode := .code }
    else balance
  | .code =>
    if c = '(' then { balance with depth := balance.depth + 1 }
    else if c = ')' then { balance with depth := balance.depth - 1 }
    else if c = '"' then { balance with mode := .text }
    else if c = ';' then { balance with mode := .comment }
    else balance

/-- Takes all characters of a text. -/
def advance (balance : Balance) (text : List Char) : Balance :=
  text.foldl step balance

/-- Counting through a concatenation is counting through its parts in order. -/
theorem advance_append (balance : Balance) (first second : List Char) :
    balance.advance (first ++ second) = (balance.advance first).advance second :=
  List.foldl_append

end Balance

/-- The open parentheses at the end of a text. -/
def parenDepth (source : List Char) : Int :=
  (Balance.initial.advance source).depth

end ExactLisp
