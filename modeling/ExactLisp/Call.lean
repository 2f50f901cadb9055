import ExactLisp.Primitive

/-!
# Calls

A call runs a primitive operation or a compiled body. It reads the store and never changes it:
compiled bodies hold no definitions and no assignments.

Calls may nest without bound, so a call is given the depth up to which they may. A call that
succeeds or fails within one depth does the same within every greater depth.
-/

namespace ExactLisp

/-- The argument at a position. -/
def argumentAt (args : List Value) (index : Nat) : Except EvalError Value :=
  match args[index]? with
  | some value => .ok value
  | none => .error (.missingArgument index args.length)

mutual

/-- Evaluates a node of a compiled body on arguments; `invoke` calls a function. -/
def Node.eval (store : Store) (invoke : Function → List Value → Except Failure Value)
    (args : List Value) : Node → Except Failure Value
  | .constant value => .ok value
  | .argument index => orFail (argumentAt args index)
  | .variable scope name => orFail (store.lookup scope name)
  | .itself placeholder => do
    let id ← orFail (store.resolve placeholder)
    return .function (.closure id)
  | .call head operands => do
    let callee ← head.eval store invoke args
    let callee ← orFail (callee.asFunction "call")
    let values ← Node.evalEach store invoke args operands
    invoke callee values
  | .sequence nodes => do
    let values ← Node.evalEach store invoke args nodes
    return values.getLastD .nil
  | .branch test onTrue onFalse => do
    let value ← test.eval store invoke args
    if value.isTruthy then onTrue.eval store invoke args else onFalse.eval store invoke args
  | .quoted node => do
    let value ← node.eval store invoke args
    return value.quoted
  | .list nodes => do
    let values ← Node.evalEach store invoke args nodes
    return .list values

/-- Evaluates nodes from left to right. -/
def Node.evalEach (store : Store) (invoke : Function → List Value → Except Failure Value)
    (args : List Value) : List Node → Except Failure (List Value)
  | [] => .ok []
  | node :: nodes => do
    let value ← node.eval store invoke args
    let values ← Node.evalEach store invoke args nodes
    return value :: values

end

namespace Store

/-- Runs the body of a function made by `lambda` or `defun`, after its arity is checked. -/
def runClosure (store : Store) (invoke : Function → List Value → Except Failure Value)
    (id : ClosureId) (args : List Value) : Except Failure Value :=
  match store.closure? id with
  | none => .error (.error (.unresolvedFunction "lambda"))
  | some closure =>
    if args.length = closure.arity then closure.body.eval store invoke args
    else .error (.error (.arityMismatch closure.title (.fixed closure.arity) args.length))

/-- Runs a builtin, after its arity is checked. -/
def runBuiltin (store : Store) (invoke : Function → List Value → Except Failure Value)
    (builtin : Builtin) (args : List Value) : Except Failure Value :=
  if builtin.arity.accepts args.length then builtin.primitive.run store invoke args
  else .error (.error (.arityMismatch builtin.name builtin.arity args.length))

/-- Calls a function on arguments, with calls nested up to a depth. A forward reference is called as
what it refers to. -/
def call (store : Store) : Nat → Function → List Value → Except Failure Value
  | 0, _, _ => .error .outOfDepth
  | depth + 1, .builtin builtin, args => store.runBuiltin (store.call depth) builtin args
  | depth + 1, .closure id, args => store.runClosure (store.call depth) id args
  | depth + 1, .placeholder placeholder, args => do
    let id ← orFail (store.resolve placeholder)
    store.runClosure (store.call depth) id args

end Store

end ExactLisp
