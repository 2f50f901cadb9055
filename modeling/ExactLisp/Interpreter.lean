import ExactLisp.Expr.Eval
import ExactLisp.Parse
import ExactLisp.Value.Display

/-!
# Interpreters

An interpreter evaluates source text in a scope that persists from one text to the next. A program
can be evaluated as a whole, where the first error ends it, or form by form, where every form is
evaluated whatever became of the ones before it.

Several interpreters may share one store; each has frames of its own.
-/

namespace ExactLisp

/-- Why a source text has no value. -/
inductive InterpreterError where
  | parse (error : ParseError)
  | evaluation (failure : Failure)
  /-- A function was asked for, and the value is of another kind. -/
  | notAFunction (kind : Kind)
  deriving DecidableEq, Repr

/-- The text of an interpreter's error. -/
def InterpreterError.message : InterpreterError → String
  | parse error => "Parse error: " ++ error.message
  | evaluation failure => "Runtime error: " ++ failure.message
  | notAFunction kind => "Expected a function, got " ++ kind.name

/-- An interpreter: the scope it evaluates in, and how deeply calls may nest. -/
structure Interpreter where
  scope : Scope
  depth : Nat
  deriving DecidableEq, Repr

namespace Interpreter

/-- How deeply calls may nest unless something else is asked for. -/
def defaultDepth : Nat := 1000000

/-- A new interpreter with a global scope of its own. -/
def create (store : Store) : Interpreter × Store :=
  let (scope, store) := store.addGlobal
  (⟨scope, defaultDepth⟩, store)

/-- A new interpreter with nothing bound. -/
def createEmpty (store : Store) : Interpreter × Store :=
  let (scope, store) := store.addRoot Assoc.empty
  (⟨scope, defaultDepth⟩, store)

/-- A new interpreter inside the scope of another one. -/
def createChild (parent : Interpreter) (store : Store) : Interpreter × Store :=
  let (scope, store) := store.addChild parent.scope
  (⟨scope, parent.depth⟩, store)

/-- Evaluates one expression. -/
def evaluateExpr (interpreter : Interpreter) (expr : Expr) (store : Store) :
    Except Failure Value × Store :=
  match expr.eval interpreter.depth interpreter.scope store with
  | .ok value store => (.ok value, store)
  | .error failure store => (.error failure, store)

/-- Evaluates expressions one after the other, whatever becomes of each. -/
def evaluateExprs (interpreter : Interpreter) :
    List Expr → Store → List (Except Failure Value) × Store
  | [], store => ([], store)
  | expr :: exprs, store =>
    let (outcome, store) := interpreter.evaluateExpr expr store
    let (outcomes, store) := evaluateExprs interpreter exprs store
    (outcome :: outcomes, store)

/-- Evaluates a program; its value is that of its last form, and its first error ends it. -/
def evaluate (interpreter : Interpreter) (source : String) (store : Store) :
    Except InterpreterError Value × Store :=
  match parseProgram source with
  | .error error => (.error (.parse error), store)
  | .ok program =>
    let (outcome, store) := interpreter.evaluateExpr program store
    (outcome.mapError .evaluation, store)

/-- Evaluates each form of a program. -/
def evaluateEach (interpreter : Interpreter) (source : String) (store : Store) :
    Except ParseError (List (Except Failure Value)) × Store :=
  match parseForms source with
  | .error error => (.error error, store)
  | .ok forms =>
    let (outcomes, store) := interpreter.evaluateExprs forms store
    (.ok outcomes, store)

/-- Evaluates a program whose value has to be a function. -/
def function (interpreter : Interpreter) (source : String) (store : Store) :
    Except InterpreterError Function × Store :=
  let (outcome, store) := interpreter.evaluate source store
  let callee := match outcome with
    | .error error => .error error
    | .ok (.function callee) => .ok callee
    | .ok other => .error (.notAFunction other.kind)
  (callee, store)

/-- Compiles the body of a function without a name. -/
def compileBody (interpreter : Interpreter) (params : List String) (body : Expr) (store : Store) :
    Except EvalError Node :=
  body.compile ⟨params, none, interpreter.scope, store⟩

/-- Runs a compiled body on arguments, whatever their number. -/
def runBody (interpreter : Interpreter) (body : Node) (args : List Value) (store : Store) :
    Except Failure Value :=
  body.eval store (store.call interpreter.depth) args

end Interpreter

/-- Evaluates a program in a new interpreter of its own. -/
def evaluateAlone (source : String) (store : Store) : Except InterpreterError Value × Store :=
  let (interpreter, store) := Interpreter.create store
  interpreter.evaluate source store

end ExactLisp
