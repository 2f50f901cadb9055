import ExactLisp.Store.Basic

/-!
# Compiling bodies

Compilation walks the whole body, left to right, and fails at the first form that a body cannot
hold, also in a branch that it then discards. What is known at that moment is folded: a test that is
constant selects its branch, a sequence or a quoted list of constants is a constant.

The name of a function that is being defined refers to the function itself. Its calls go through the
forward reference; read as a value the name is the finished function, never the reference.
-/

namespace ExactLisp

/-- What a body is compiled against: the parameters, the function being defined, if it has a name,
and the scope and store at the moment of compilation. -/
structure CompileContext where
  params : List String
  self? : Option Placeholder
  scope : Scope
  store : Store

namespace CompileContext

/-- The position of a parameter; of several with one name, the last. -/
def parameter? (context : CompileContext) (name : String) : Option Nat :=
  (context.params.zipIdx.reverse.find? (·.1 == name)).map Prod.snd

/-- The function being defined, if `name` is its name. -/
def selfNamed? (context : CompileContext) (name : String) : Option Placeholder :=
  context.self?.filter (·.name == name)

/-- A name of the scope around a function: its value if it has one by now, else a variable. -/
def outerReference (context : CompileContext) (name : String) : Node :=
  match context.store.lookup? context.scope name with
  | some value => .constant value
  | none => .variable context.scope name

/-- A name at the head of a call. -/
def headReference (context : CompileContext) (name : String) : Node :=
  match context.parameter? name with
  | some index => .argument index
  | none =>
    match context.selfNamed? name with
    | some placeholder => .constant (.function (.placeholder placeholder))
    | none => context.outerReference name

/-- A name read as a value. -/
def valueReference (context : CompileContext) (name : String) : Node :=
  match context.headReference name with
  | .constant (.function (.placeholder placeholder)) => .itself placeholder
  | node => node

/-- The head of a call, given its node as a value: a name there may stay a forward reference. -/
def callHead (context : CompileContext) (head : Expr) (node : Node) : Node :=
  match head with
  | .symbol name => context.headReference name
  | _ => node

end CompileContext

/-- Replaces a sequence of constants by its last one. -/
def Node.foldSequence (nodes : List Node) : Node :=
  if nodes.all Node.isConstant then nodes.getLastD (.constant .nil) else .sequence nodes

/-- Selects the branch of a constant test. -/
def Node.foldBranch (test onTrue onFalse : Node) : Node :=
  match test.constant? with
  | some value => if value.isTruthy then onTrue else onFalse
  | none => .branch test onTrue onFalse

/-- Replaces a list of constants by the constant list. -/
def Node.foldList (nodes : List Node) : Node :=
  match nodes.mapM Node.constant? with
  | some values => .constant (.list values)
  | none => .list nodes

/-- Replaces the quotation of a constant by a constant. -/
def Node.foldQuoted (node : Node) : Node :=
  match node.constant? with
  | some value => .constant value.quoted
  | none => .quoted node

mutual

/-- Compiles an expression in code position. -/
def Expr.compile (context : CompileContext) : Expr → Except EvalError Node
  | .literal value => .ok (.constant (.ofLiteral value))
  | .symbol name => .ok (context.valueReference name)
  | .list [] => .ok (.constant (.list []))
  | .list (head :: args) => do
    let node ← head.compile context
    let args ← Expr.compileEach context args
    return .call (context.callHead head node) args
  | .quote datum => datum.compileDatum context
  | .unquote _ => .error .unquoteOutsideQuote
  | .sequence forms => do
    let nodes ← Expr.compileEach context forms
    return Node.foldSequence nodes
  | .branch test onTrue onFalse => do
    let test ← test.compile context
    let onTrue ← onTrue.compile context
    let onFalse ← onFalse.compile context
    return Node.foldBranch test onTrue onFalse
  | .define .. => .error (.unsupportedForm .define)
  | .set .. => .error (.unsupportedForm .set)
  | .lambda .. => .error (.unsupportedForm .lambda)
  | .defun .. => .error (.unsupportedForm .defun)

/-- Compiles expressions in code position, from left to right. -/
def Expr.compileEach (context : CompileContext) : List Expr → Except EvalError (List Node)
  | [] => .ok []
  | expr :: exprs => do
    let node ← expr.compile context
    let nodes ← Expr.compileEach context exprs
    return node :: nodes

/-- Compiles an expression in data position. -/
def Expr.compileDatum (context : CompileContext) : Expr → Except EvalError Node
  | .literal value => .ok (.constant (.ofLiteral value))
  | .symbol name => .ok (.constant (.symbol name))
  | .list items => do
    let nodes ← Expr.compileData context items
    return Node.foldList nodes
  | .quote datum => do
    let node ← datum.compileDatum context
    return Node.foldQuoted node
  | .unquote code => code.compile context
  | .sequence _ => .error (.notData .sequence)
  | .branch .. => .error (.notData .branch)
  | .define .. => .error (.notData .define)
  | .set .. => .error (.notData .set)
  | .lambda .. => .error (.notData .lambda)
  | .defun .. => .error (.notData .defun)

/-- Compiles expressions in data position, from left to right. -/
def Expr.compileData (context : CompileContext) : List Expr → Except EvalError (List Node)
  | [] => .ok []
  | expr :: exprs => do
    let node ← expr.compileDatum context
    let nodes ← Expr.compileData context exprs
    return node :: nodes

end

end ExactLisp
