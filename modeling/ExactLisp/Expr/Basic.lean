/-!
# Expressions

The tree of a program. A list is an ordinary call; every special form has a node of its own with
exactly the children it needs. The same type describes code and quoted data: below `quote` lists
and symbols stand for themselves, until `unquote` switches back to code.

How many arguments a special form or a builtin takes is told by its arity.
-/

namespace ExactLisp

/-- Values that can be written directly. -/
inductive Literal where
  | nil
  | boolean (value : Bool)
  | integer (value : Int)
  | float (value : Rat)
  | string (value : String)
  deriving DecidableEq, Repr

/-- A program tree. -/
inductive Expr where
  | literal (value : Literal)
  | symbol (name : String)
  | list (items : List Expr)
  | quote (datum : Expr)
  | unquote (code : Expr)
  | sequence (forms : List Expr)
  | branch (test onTrue onFalse : Expr)
  | define (name : String) (value : Expr)
  | set (name : String) (value : Expr)
  | lambda (params : List String) (body : Expr)
  | defun (name : String) (params : List String) (body : Expr)

/-- The special forms, as they are named in programs and messages. -/
inductive SpecialForm where
  | quote
  | unquote
  | sequence
  | branch
  | define
  | set
  | lambda
  | defun
  deriving DecidableEq, Repr

/-- The name of a special form. -/
def SpecialForm.name : SpecialForm → String
  | quote => "quote"
  | unquote => "unquote"
  | sequence => "sequence"
  | branch => "if"
  | define => "define"
  | set => "set!"
  | lambda => "lambda"
  | defun => "defun"

/-- The argument counts that an operation accepts. -/
inductive Arity where
  /-- Exactly `count` arguments. -/
  | fixed (count : Nat)
  /-- `least` arguments or more. -/
  | variadic (least : Nat)
  /-- Between `least` and `most` arguments, both included. -/
  | range (least most : Nat)
  deriving DecidableEq, Repr

namespace Arity

/-- Whether `count` arguments are accepted. -/
def accepts : Arity → Nat → Bool
  | fixed expected, count => count == expected
  | variadic least, count => decide (least ≤ count)
  | range least most, count => decide (least ≤ count) && decide (count ≤ most)

/-- The arity as error messages name it. -/
def display : Arity → String
  | fixed count => toString count
  | variadic least => "at least " ++ toString least
  | range least most => toString least ++ "-" ++ toString most

end Arity

/-- How many forms follow the keyword of a special form. -/
def SpecialForm.arity : SpecialForm → Arity
  | quote | unquote => .fixed 1
  | branch => .fixed 3
  | define | set => .fixed 2
  | lambda => .variadic 2
  | defun => .variadic 3
  | sequence => .variadic 0

namespace Expr

/-- The special form that a node represents, if it is one. -/
def specialForm? : Expr → Option SpecialForm
  | literal _ | symbol _ | list _ => none
  | quote _ => some .quote
  | unquote _ => some .unquote
  | sequence _ => some .sequence
  | branch .. => some .branch
  | define .. => some .define
  | set .. => some .set
  | lambda .. => some .lambda
  | defun .. => some .defun

/-- The body of a function: one form is taken as it is, several are evaluated in order. -/
def ofBody : List Expr → Expr
  | [form] => form
  | forms => sequence forms

end Expr

end ExactLisp
