import ExactLisp.Value.Basic

/-!
# Compiled bodies

The body of a function is compiled once, when the function is made. In a compiled body a parameter
is a position in the arguments, a name that had a value is that value, and a name that had none is
looked up each time the body runs, in the scope where the function was made.
-/

namespace ExactLisp

/-- The frames that a name is searched in: the own frame first, then the enclosing ones, nearest
first. -/
structure Scope where
  own : FrameId
  outer : List FrameId
  deriving DecidableEq, Repr

/-- All frames of a scope, nearest first. -/
def Scope.chain (scope : Scope) : List FrameId :=
  scope.own :: scope.outer

/-- A node of a compiled body. -/
inductive Node where
  /-- A value that was known when the function was made. -/
  | constant (value : Value)
  /-- The argument at a position. -/
  | argument (index : Nat)
  /-- A name to be looked up when the body runs. -/
  | variable (scope : Scope) (name : String)
  /-- The function being defined, as a value. -/
  | itself (placeholder : Placeholder)
  /-- A call; the head is evaluated first. -/
  | call (head : Node) (args : List Node)
  /-- Nodes evaluated in order; the value is the last one's. -/
  | sequence (nodes : List Node)
  /-- A choice. -/
  | branch (test onTrue onFalse : Node)
  /-- The list that quotes the value of a node. -/
  | quoted (node : Node)
  /-- The list of the values of nodes. -/
  | list (nodes : List Node)

namespace Node

/-- The value of a constant node. -/
def constant? : Node → Option Value
  | constant value => some value
  | _ => none

/-- Whether a node is a constant. -/
def isConstant (node : Node) : Bool :=
  node.constant?.isSome

end Node

/-- A function made by `lambda` or `defun`. -/
structure Closure where
  name : Option String
  arity : Nat
  body : Node

/-- The name under which a function appears in error messages. -/
def Closure.title (closure : Closure) : String :=
  closure.name.getD "lambda"

end ExactLisp
