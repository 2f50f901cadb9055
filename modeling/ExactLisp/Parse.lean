import ExactLisp.Expr.OfForm

/-!
# Parsing

The public face of the reader: source text in, expressions out. The whole text has to be a sequence
of forms before any of them is turned into an expression, so a malformed text is reported as such
even if a faulty form stands before the malformed place.

A text fails to parse in one of two ways. Either it is not a sequence of forms; then the error names
the place where it stops to be one and what would have been accepted there, under the source line
itself. Or one of its forms is faulty; then the error names the stretch of the source that the fault
lies in.
-/

namespace ExactLisp

/-! ### Errors -/

/-- Why a text is no program. -/
inductive ParseError where
  /-- The text stops to be a sequence of forms at `position`, in the source line `line`. -/
  | malformed (position : Position) (line : String) (expectation : Expectation)
  /-- A form is faulty. -/
  | faulty (problem : FormProblem) (span : Span)
  deriving DecidableEq, Repr

/-- The names of everything that starts a form. -/
def formNames : String :=
  "quoted, unquoted, list, float, integer, string, boolean, nil, or symbol"

/-- What would have been accepted, as error messages list it. -/
def Expectation.message : Expectation → String
  | whole .program => "program"
  | whole .single => "single"
  | form => formNames
  | formOrEnd => "EOI, " ++ formNames
  | finish => "EOI"

/-- The source line around an offset, without line feeds and carriage returns. -/
def lineAround (source : List Char) (offset : Nat) : List Char :=
  let before := ((source.take offset).reverse.takeWhile (· != '\n')).reverse
  let after := (source.drop offset).takeWhile (· != '\n')
  (before ++ after).filter (· != '\r')

/-- The error for a text that is no sequence of forms. -/
def ParseError.ofMisread (source : List Char) (misread : Misread) : ParseError :=
  .malformed (Position.ofOffset source misread.offset)
    (String.ofList (lineAround source misread.offset)) misread.expectation

/-- The error for a faulty form. -/
def ParseError.ofFault (source : List Char) (fault : Fault) : ParseError :=
  .faulty fault.problem (fault.extent.locate source)

/-- What is wrong with a form; `found` is the text of the form. -/
def FormProblem.message (found : String) : FormProblem → String
  | expectedSymbol => "Expected symbol, found " ++ found
  | expectedParameters => "Expected parameter list, found " ++ found
  | duplicateParameter name => "duplicate parameter " ++ name
  | literal problem => "Invalid literal: " ++ problem.message
  | escape c => "Invalid escape sequence \\" ++ c.toString
  | argumentCount form expected actual =>
    "Arity mismatch in " ++ form.name ++ ": expected " ++ expected.display ++
      " arguments, got " ++ toString actual

/-- The marker under a source line that points at `column`; tabs are kept so that it lines up. -/
def pointer (line : List Char) (column : Nat) : List Char :=
  (line.take (column - 1)).map (fun c => if c = '\t' then '\t' else ' ') ++ "^---".toList

/-- The text of a parse error. -/
def ParseError.message : ParseError → String
  | malformed position line expectation =>
    let number := toString position.line
    let margin := String.ofList (List.replicate number.length ' ')
    String.intercalate "\n"
      [margin ++ "--> " ++ position.display,
        margin ++ " |",
        number ++ " | " ++ line,
        margin ++ " | " ++ String.ofList (pointer line.toList position.column),
        margin ++ " |",
        margin ++ " = expected " ++ expectation.message]
  | faulty problem span => problem.message span.text ++ " at " ++ span.start.display

/-! ### Programs and expressions -/

/-- Parses the characters of a text towards a goal. -/
def parseText (goal : Goal) (source : List Char) : Except ParseError (List Expr) :=
  match readForms goal source with
  | .error misread => .error (.ofMisread source misread)
  | .ok forms =>
    match Form.toCodes forms with
    | .error fault => .error (.ofFault source fault)
    | .ok exprs => .ok exprs

/-- Parses a program into its forms, in the order of the text. -/
def parseForms (source : String) : Except ParseError (List Expr) :=
  parseText .program source.toList

/-- Parses a program into the sequence of its forms. -/
def parseProgram (source : String) : Except ParseError Expr :=
  .sequence <$> parseForms source

/-- Parses exactly one form. A text that was read towards a single form holds one, which is taken as
it is. -/
def parseExpression (source : String) : Except ParseError Expr :=
  Expr.ofBody <$> parseText .single source.toList

end ExactLisp
