import ExactLisp.Expr.Basic
import ExactLisp.Reader.Form
import ExactLisp.Reader.Quoted
import ExactLisp.Reader.Word

/-!
# From forms to expressions

A form is read either as code or as data. As code, a list headed by the name of a special form
becomes that special form; as data, lists stay lists and all names stay symbols. A quote mark turns
to data, a comma turns back to code.

Faults are reported in the order of reading: the argument count of a special form comes before its
arguments, and these come from left to right.
-/

namespace ExactLisp

/-- What is wrong with a form that the grammar accepts. -/
inductive FormProblem where
  /-- Another kind of form has to stand here. -/
  | expectedSymbol
  | expectedParameters
  /-- A parameter is named twice. -/
  | duplicateParameter (name : String)
  /-- A number that denotes no value. -/
  | literal (problem : LiteralProblem)
  /-- A backslash before a character that cannot be escaped. -/
  | escape (c : Char)
  /-- A special form with the wrong number of arguments. -/
  | argumentCount (form : SpecialForm) (expected : Arity) (actual : Nat)
  deriving DecidableEq, Repr

/-- A problem and the stretch of the source it lies in. -/
structure Fault where
  problem : FormProblem
  extent : Extent
  deriving DecidableEq, Repr

/-- The special form that a word introduces at the head of a list. -/
def keyword? (run : List Char) : Option SpecialForm :=
  let name := String.ofList run
  if name = "quote" then some .quote
  else if name = "if" then some .branch
  else if name = "define" then some .define
  else if name = "set!" then some .set
  else if name = "lambda" then some .lambda
  else if name = "defun" then some .defun
  else none

/-- The special form that heads a list, if its first item is the name of one. -/
def Form.keyword? : List Form → Option SpecialForm
  | .word _ run :: _ => ExactLisp.keyword? run
  | _ => none

/-- The expression of a word. -/
def Expr.ofWord (extent : Extent) (run : List Char) : Except Fault Expr :=
  match Word.ofRun run with
  | .decimal number =>
    match number.value with
    | .ok value => .ok (.literal (.float value))
    | .error problem => .error ⟨.literal problem, extent⟩
  | .integer number => .ok (.literal (.integer number.value))
  | .boolean value => .ok (.literal (.boolean value))
  | .nil => .ok (.literal .nil)
  | .symbol => .ok (.symbol (String.ofList run))

/-- The expression of a string literal. -/
def Expr.ofText (extent : Extent) (raw : List Char) : Except Fault Expr :=
  match unescapeText raw with
  | .ok text => .ok (.literal (.string (String.ofList text)))
  | .error c => .error ⟨.escape c, extent⟩

/-- The name that a form spells, where only a symbol may stand. -/
def Form.symbolName : Form → Except Fault String
  | .word extent run =>
    match Word.ofRun run with
    | .symbol => .ok (String.ofList run)
    | _ => .error ⟨.expectedSymbol, extent⟩
  | form => .error ⟨.expectedSymbol, form.extent⟩

/-- Collects the names of parameters, which have to be distinct symbols; `earlier` are those already
seen. -/
def Form.parameterNames (earlier : List String) : List Form → Except Fault (List String)
  | [] => .ok earlier.reverse
  | form :: rest => do
    let name ← form.symbolName
    if name ∈ earlier then .error ⟨.duplicateParameter name, form.extent⟩
    else parameterNames (name :: earlier) rest

/-- The parameters of a function: a list of names, or `nil` for none. -/
def Form.parameters : Form → Except Fault (List String)
  | .list _ items => parameterNames [] items
  | .word extent run =>
    match Word.ofRun run with
    | .nil => .ok []
    | _ => .error ⟨.expectedParameters, extent⟩
  | form => .error ⟨.expectedParameters, form.extent⟩

mutual

/-- Reads a form as code. -/
def Form.toCode : Form → Except Fault Expr
  | .word extent run => Expr.ofWord extent run
  | .text extent raw => Expr.ofText extent raw
  | .marked _ .quote form => .quote <$> form.toDatum
  | .marked _ .unquote form => .unquote <$> form.toCode
  | .list extent items =>
    match Form.keyword? items, items with
    | some .quote, [_, datum] => .quote <$> datum.toDatum
    | some .branch, [_, test, onTrue, onFalse] => do
      let test ← test.toCode
      let onTrue ← onTrue.toCode
      let onFalse ← onFalse.toCode
      return .branch test onTrue onFalse
    | some .define, [_, name, value] => do
      let name ← name.symbolName
      let value ← value.toCode
      return .define name value
    | some .set, [_, name, value] => do
      let name ← name.symbolName
      let value ← value.toCode
      return .set name value
    | some .lambda, _ :: params :: form :: forms => do
      let params ← params.parameters
      let first ← form.toCode
      let others ← Form.toCodes forms
      return .lambda params (.ofBody (first :: others))
    | some .defun, _ :: name :: params :: form :: forms => do
      let name ← name.symbolName
      let params ← params.parameters
      let first ← form.toCode
      let others ← Form.toCodes forms
      return .defun name params (.ofBody (first :: others))
    | some keyword, items =>
      .error ⟨.argumentCount keyword keyword.arity (items.length - 1), extent⟩
    | none, items => .list <$> Form.toCodes items

/-- Reads forms as code, from left to right. -/
def Form.toCodes : List Form → Except Fault (List Expr)
  | [] => .ok []
  | form :: forms => do
    let expr ← form.toCode
    let exprs ← Form.toCodes forms
    return expr :: exprs

/-- Reads a form as data. -/
def Form.toDatum : Form → Except Fault Expr
  | .word extent run => Expr.ofWord extent run
  | .text extent raw => Expr.ofText extent raw
  | .marked _ .quote form => .quote <$> form.toDatum
  | .marked _ .unquote form => .unquote <$> form.toCode
  | .list _ items => .list <$> Form.toData items

/-- Reads forms as data, from left to right. -/
def Form.toData : List Form → Except Fault (List Expr)
  | [] => .ok []
  | form :: forms => do
    let expr ← form.toDatum
    let exprs ← Form.toData forms
    return expr :: exprs

end

end ExactLisp
