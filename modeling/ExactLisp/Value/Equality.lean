import ExactLisp.Number
import ExactLisp.Store.Basic

/-!
# Three equalities

Functions are compared by identity, seen through forward references; so equality is relative to a
store. On top of it stand three relations, each contained in the next:

* `Value.eqv`: atoms of one kind with the same content; of lists only the two empty ones;
* `Value.same`: the same structure throughout;
* `Value.equal`: the same structure, with numbers compared by value across kinds.
-/

namespace ExactLisp

namespace Store

/-- Whether two functions stand for the same function made by `lambda` or `defun`. -/
def sameClosure (store : Store) (f g : Function) : Bool :=
  match store.closureId? f, store.closureId? g with
  | some a, some b => a == b
  | _, _ => false

/-- Whether two functions are one. Builtins are one if they are the same operation of the same
global frame; forward references of one cell are one even if they refer to nothing. -/
def sameFunction (store : Store) : Function → Function → Bool
  | .builtin a, .builtin b => a.home == b.home && a.primitive == b.primitive
  | .placeholder a, .placeholder b =>
    a.cell == b.cell || store.sameClosure (.placeholder a) (.placeholder b)
  | f, g => store.sameClosure f g

end Store

namespace Value

/-- Shallow equality. -/
def eqv (store : Store) : Value → Value → Bool
  | nil, nil => true
  | boolean a, boolean b => a == b
  | integer a, integer b => a == b
  | float a, float b => a == b
  | string a, string b => a == b
  | symbol a, symbol b => a == b
  | function a, function b => store.sameFunction a b
  | list a, list b => a.isEmpty && b.isEmpty
  | _, _ => false

mutual

/-- Structural equality. -/
def same (store : Store) : Value → Value → Bool
  | list a, list b => sameItems store a b
  | a, b => a.eqv store b

/-- Structural equality of lists, item by item. -/
def sameItems (store : Store) : List Value → List Value → Bool
  | [], [] => true
  | a :: as, b :: bs => a.same store b && sameItems store as bs
  | _, _ => false

end

/-- Equality of numbers by value; anything else is unequal to a number. -/
def sameNumber (a b : Value) : Bool :=
  match Number.ofValue "equal?" a, Number.ofValue "equal?" b with
  | .ok a, .ok b => a.order b == .eq
  | _, _ => false

mutual

/-- Structural equality with numbers compared by value. -/
def equal (store : Store) : Value → Value → Bool
  | list a, list b => equalItems store a b
  | a, b => if a.isNumber && b.isNumber then sameNumber a b else a.eqv store b

/-- Equality of lists, item by item. -/
def equalItems (store : Store) : List Value → List Value → Bool
  | [], [] => true
  | a :: as, b :: bs => a.equal store b && equalItems store as bs
  | _, _ => false

end

end Value

end ExactLisp
