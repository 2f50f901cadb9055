import ExactLisp.Call
import ExactLisp.Node.Compile

/-!
# Evaluation

Expressions are evaluated in a scope, against a store that definitions and assignments change. What
was changed before an error stays changed. Function bodies are compiled when the function is made
and evaluated by calls.
-/

namespace ExactLisp

/-- An evaluation: it reads and changes the store, and gives a value or fails. The store is part of
the outcome in both cases. -/
abbrev Evaluation (α : Type) : Type :=
  EStateM Failure Store α

namespace Evaluation

/-- An outcome that does not depend on the store. -/
def ofExcept {α : Type} (result : Except Failure α) : Evaluation α := fun store =>
  match result with
  | .ok value => .ok value store
  | .error failure => .error failure store

/-- An outcome that is read off the store. -/
def read {α : Type} (query : Store → Except Failure α) : Evaluation α := fun store =>
  ofExcept (query store) store

/-- Binds a name in the own frame of a scope. -/
def define (scope : Scope) (name : String) (value : Value) : Evaluation Value := fun store =>
  .ok value (store.define scope name value)

/-- Changes the value of a name in the nearest frame that binds it. -/
def set (scope : Scope) (name : String) (value : Value) : Evaluation Value := fun store =>
  match store.set scope name value with
  | .ok changed => .ok value changed
  | .error cause => .error (.error cause) store

/-- Makes a function without a name. -/
def makeLambda (scope : Scope) (params : List String) (body : Expr) : Evaluation Value :=
  fun store =>
    match body.compile ⟨params, none, scope, store⟩ with
    | .error cause => .error (.error cause) store
    | .ok node =>
      let (id, store) := store.addClosure ⟨none, params.length, node⟩
      .ok (.function (.closure id)) store

/-- Makes a function that may call itself, and binds it in the own frame of a scope. If the body
does not compile, the store is left as it was. Compilation is told the name; a frame around the body
in which the name stands for the forward reference would do the same. -/
def makeDefun (scope : Scope) (name : String) (params : List String) (body : Expr) :
    Evaluation Value := fun store =>
  let (placeholder, extended) := store.addPlaceholder name
  match body.compile ⟨params, some placeholder, scope, extended⟩ with
  | .error cause => .error (.error cause) store
  | .ok node =>
    let (id, extended) := extended.addClosure ⟨some name, params.length, node⟩
    let value := Value.function (.closure id)
    .ok value ((extended.fill placeholder id).define scope name value)

end Evaluation

mutual

/-- Evaluates an expression in code position; `invoke` calls a function. -/
def Expr.evalWith (invoke : Store → Function → List Value → Except Failure Value)
    (scope : Scope) : Expr → Evaluation Value
  | .literal value => pure (.ofLiteral value)
  | .symbol name => Evaluation.read fun store => orFail (store.lookup scope name)
  | .list [] => pure (.list [])
  | .list (head :: args) => do
    let callee ← head.evalWith invoke scope
    let callee ← Evaluation.ofExcept (orFail (callee.asFunction "call"))
    let values ← Expr.evalEach invoke scope args
    Evaluation.read fun store => invoke store callee values
  | .quote datum => datum.evalDatum invoke scope
  | .unquote _ => Evaluation.ofExcept (.error (.error .unquoteOutsideQuote))
  | .sequence forms => do
    let values ← Expr.evalEach invoke scope forms
    return values.getLastD .nil
  | .branch test onTrue onFalse => do
    let value ← test.evalWith invoke scope
    if value.isTruthy then onTrue.evalWith invoke scope else onFalse.evalWith invoke scope
  | .define name value => do
    let value ← value.evalWith invoke scope
    Evaluation.define scope name value
  | .set name value => do
    let value ← value.evalWith invoke scope
    Evaluation.set scope name value
  | .lambda params body => Evaluation.makeLambda scope params body
  | .defun name params body => Evaluation.makeDefun scope name params body

/-- Evaluates expressions in code position, from left to right. -/
def Expr.evalEach (invoke : Store → Function → List Value → Except Failure Value)
    (scope : Scope) : List Expr → Evaluation (List Value)
  | [] => pure []
  | expr :: exprs => do
    let value ← expr.evalWith invoke scope
    let values ← Expr.evalEach invoke scope exprs
    return value :: values

/-- Rebuilds an expression in data position as a value; what is unquoted is evaluated in place. -/
def Expr.evalDatum (invoke : Store → Function → List Value → Except Failure Value)
    (scope : Scope) : Expr → Evaluation Value
  | .literal value => pure (.ofLiteral value)
  | .symbol name => pure (.symbol name)
  | .list items => do
    let values ← Expr.evalData invoke scope items
    return .list values
  | .quote datum => do
    let value ← datum.evalDatum invoke scope
    return value.quoted
  | .unquote code => code.evalWith invoke scope
  | .sequence _ => Evaluation.ofExcept (.error (.error (.notData .sequence)))
  | .branch .. => Evaluation.ofExcept (.error (.error (.notData .branch)))
  | .define .. => Evaluation.ofExcept (.error (.error (.notData .define)))
  | .set .. => Evaluation.ofExcept (.error (.error (.notData .set)))
  | .lambda .. => Evaluation.ofExcept (.error (.error (.notData .lambda)))
  | .defun .. => Evaluation.ofExcept (.error (.error (.notData .defun)))

/-- Rebuilds expressions in data position, from left to right. -/
def Expr.evalData (invoke : Store → Function → List Value → Except Failure Value)
    (scope : Scope) : List Expr → Evaluation (List Value)
  | [] => pure []
  | expr :: exprs => do
    let value ← expr.evalDatum invoke scope
    let values ← Expr.evalData invoke scope exprs
    return value :: values

end

/-- Evaluates an expression in code position, with calls nested up to a depth. -/
def Expr.eval (depth : Nat) (scope : Scope) (expr : Expr) : Evaluation Value :=
  expr.evalWith (fun store => store.call depth) scope

end ExactLisp
