import ExactLisp.Config
import ExactLisp.Interpreter

/-!
# Running programs on a console

A program is run form by form. What that shows is described as data: texts for the two output
channels, and marks where the time a form took is shown. Only the outermost layer writes them.
-/

namespace ExactLisp

/-- One thing shown on the console. -/
inductive Output where
  /-- Text on the standard output. -/
  | text (text : String)
  /-- Text on the standard error output. -/
  | complaint (text : String)
  /-- The time that the last form took, on the standard output. -/
  | elapsed
  deriving DecidableEq, Repr

namespace Output

/-- A text in bold red. -/
def alarming (text : String) : String :=
  "\x1b[1;31m" ++ text ++ "\x1b[0m"

/-- The line that shows a time; it is dimmed. -/
def elapsedLine (time : String) : String :=
  "\x1b[2m(" ++ time ++ ")\x1b[0m\n"

/-- A time in nanoseconds as it is shown: in the largest unit that fits, with three decimals. -/
def timeText (nanoseconds : Nat) : String :=
  let (unit, symbol) :=
    if 1000000000 ≤ nanoseconds then (1000000000, "s")
    else if 1000000 ≤ nanoseconds then (1000000, "ms")
    else if 1000 ≤ nanoseconds then (1000, "µs")
    else (1, "ns")
  let thousandths := roundQuotient (nanoseconds * 1000) unit
  String.ofList (naturalDigits (thousandths / 1000) ++ '.' ::
    fixedDigits 3 (thousandths % 1000) []) ++ symbol

/-- A line on the standard output. -/
def line (content : String) : Output :=
  text (content ++ "\n")

/-- The line that reports a parse error. -/
def parseError (error : ParseError) : Output :=
  complaint (alarming "parse error:" ++ " " ++ error.message ++ "\n")

/-- The lines that report the outcome of a form, and the time it took if that is wanted. -/
def ofOutcome (config : Config) (store : Store) (outcome : Except Failure Value) : List Output :=
  let report := match outcome with
    | .ok value => line (value.display store config.floatDigits)
    | .error failure => complaint (alarming "error:" ++ " " ++ failure.message ++ "\n")
  if config.showTiming then [report, elapsed] else [report]

end Output

/-- What running a program shows, whether all of it succeeded, and the store it leaves. -/
structure ProgramRun where
  outputs : List Output
  succeeded : Bool
  store : Store

namespace Interpreter

/-- Runs one form of a program. -/
def runForm (interpreter : Interpreter) (config : Config) (form : Expr) (store : Store) :
    ProgramRun :=
  let (outcome, store) := interpreter.evaluateExpr form store
  ⟨Output.ofOutcome config store outcome, outcome.toBool, store⟩

/-- Runs forms one after the other, whatever becomes of each. -/
def runForms (interpreter : Interpreter) (config : Config) : List Expr → Store → ProgramRun
  | [], store => ⟨[], true, store⟩
  | form :: forms, store =>
    let first := interpreter.runForm config form store
    let others := runForms interpreter config forms first.store
    ⟨first.outputs ++ others.outputs, first.succeeded && others.succeeded, others.store⟩

/-- Runs a program. Nothing of it runs if it does not parse. -/
def runProgram (interpreter : Interpreter) (config : Config) (source : String) (store : Store) :
    ProgramRun :=
  match parseForms source with
  | .error error => ⟨[Output.parseError error], false, store⟩
  | .ok forms => interpreter.runForms config forms store

end Interpreter

end ExactLisp
