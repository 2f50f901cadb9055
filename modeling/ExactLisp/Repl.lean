import ExactLisp.Balance
import ExactLisp.Console
import ExactLisp.Text.Basic

/-!
# The read-eval-print loop

Lines are collected until their parentheses are balanced, and then run as a program. A line that
begins a new program and starts with a colon is a command of the loop itself.

Where the lines come from is left open: the loop is run on what a line editor answers.
-/

namespace ExactLisp

/-- The state of the loop between two lines. -/
structure Repl where
  interpreter : Interpreter
  config : Config
  store : Store
  /-- The lines of a program that is not complete yet. -/
  pending : String

/-- A command of the loop. -/
inductive ReplCommand where
  | help
  | names
  | timing
  | quit
  | unknown (name : String)
  deriving DecidableEq, Repr

/-- The command that a line gives. -/
def ReplCommand.ofLine (line : String) : ReplCommand :=
  let name := String.ofList (firstWord line.toList)
  if name = ":help" ∨ name = ":h" then .help
  else if name = ":env" then .names
  else if name = ":time" then .timing
  else if name = ":quit" ∨ name = ":q" then .quit
  else .unknown name

namespace Repl

/-- What is shown when the loop starts. -/
def banner : Output :=
  .line "Lispy REPL. Type :help for commands, :quit to exit."

/-- What the command for help shows. -/
def helpLines : List String :=
  ["Commands:",
    "  :help, :h      Show this help",
    "  :env           List bindings of the root environment",
    "  :time          Toggle elapsed-time printing",
    "  :quit, :q      Exit the REPL",
    "Unbalanced input continues on the next line."]

/-- A loop with a new interpreter of its own. -/
def start (config : Config) : Repl :=
  let (interpreter, store) := Interpreter.create Store.empty
  ⟨interpreter, config, store, ""⟩

/-- What is shown before a line is read. -/
def prompt (repl : Repl) : Output :=
  .text (if repl.pending.isEmpty then repl.config.prompt else "  ")

/-- Drops a program that is not complete. -/
def discardPending (repl : Repl) : Repl :=
  { repl with pending := "" }

/-- Whether a line is a command. -/
def isCommand (repl : Repl) (line : String) : Bool :=
  repl.pending.isEmpty && (trimStart line.toList).head? == some ':'

/-- How a run of the loop ended. -/
inductive Ending where
  /-- A command ended the loop, or no line was left. -/
  | finished
  /-- A line could not be read. -/
  | unreadable (failure : ReadFailure)
  deriving DecidableEq, Repr

/-- Carries out a command. -/
def obey (repl : Repl) : ReplCommand → List Output × Except Ending Repl
  | .help => (helpLines.map .line, .ok repl)
  | .names =>
    ([.line (String.intercalate " " (repl.store.names repl.interpreter.scope))], .ok repl)
  | .timing =>
    let showTiming := !repl.config.showTiming
    ([.line (if showTiming then "timing on" else "timing off")],
      .ok { repl with config := { repl.config with showTiming } })
  | .quit => ([], .error .finished)
  | .unknown name =>
    ([.line ("Unknown command " ++ name ++ ". Type :help for commands.")], .ok repl)

/-- What becomes of the lines collected so far. -/
inductive Readiness where
  /-- More lines are awaited. -/
  | waiting
  /-- There is nothing to run. -/
  | blank
  /-- The program is complete. -/
  | ready
  deriving DecidableEq, Repr

/-- Judges the lines collected so far. -/
def readiness (collected : String) : Readiness :=
  if 0 < parenDepth collected.toList then .waiting
  else if collected.toList.all isBlank then .blank
  else .ready

/-- What a line editor answers when it is asked for a line. -/
inductive Reading where
  /-- A line, without its line end. -/
  | line (line : String)
  /-- The line was broken off. -/
  | interrupted
  /-- No line could be read. -/
  | failed (failure : ReadFailure)
  deriving DecidableEq, Repr

/-- What the loop does with an answer of the line editor. -/
inductive Action where
  /-- A command is carried out. -/
  | obey (command : ReplCommand)
  /-- The lines collected so far wait for more. -/
  | collect (pending : String)
  /-- Only blanks were collected, and they are dropped. -/
  | skip
  /-- A program is complete and is run. -/
  | run (program : String)
  /-- A program that is not complete is dropped. -/
  | abandon
  /-- The loop ends. -/
  | fail (failure : ReadFailure)
  deriving DecidableEq, Repr

/-- Decides what to do with an answer of the line editor. -/
def action (repl : Repl) : Reading → Action
  | .line line =>
    if repl.isCommand line then .obey (ReplCommand.ofLine line)
    else
      let collected := repl.pending ++ line ++ "\n"
      match readiness collected with
      | .waiting => .collect collected
      | .blank => .skip
      | .ready => .run collected
  | .interrupted => .abandon
  | .failed failure => .fail failure

/-- Carries out an action: what is shown, and the loop after it or how it ended. -/
def perform (repl : Repl) : Action → List Output × Except Ending Repl
  | .obey command => repl.obey command
  | .collect pending => ([], .ok { repl with pending })
  | .skip => ([], .ok repl.discardPending)
  | .run program =>
    let run := repl.interpreter.runProgram repl.config program repl.store
    (run.outputs, .ok { repl.discardPending with store := run.store })
  | .abandon => ([.line "^C"], .ok repl.discardPending)
  | .fail failure => ([], .error (.unreadable failure))

/-- One turn of the loop: the prompt, what was done, and what that showed. -/
structure Turn where
  prompt : Output
  action : Action
  shown : List Output

/-- What is seen of a turn. -/
def Turn.transcript (turn : Turn) : List Output :=
  turn.prompt :: turn.shown

/-- Takes one turn. -/
def takeTurn (repl : Repl) (reading : Reading) : Turn × Except Ending Repl :=
  let action := repl.action reading
  let (shown, next) := repl.perform action
  (⟨repl.prompt, action, shown⟩, next)

/-- Takes a turn for each answer of the line editor, until the loop ends. -/
def takeTurns (repl : Repl) : List Reading → List Turn × Except Ending Repl
  | [] => ([], .ok repl)
  | reading :: readings =>
    match repl.takeTurn reading with
    | (turn, .error ending) => ([turn], .error ending)
    | (turn, .ok next) =>
      let (turns, last) := next.takeTurns readings
      (turn :: turns, last)

/-- Runs the loop until it ends or the line editor has no more lines; the prompt is shown once more
before that is noticed. -/
def run (repl : Repl) (readings : List Reading) : List Output × Ending :=
  match repl.takeTurns readings with
  | (turns, .error ending) => (turns.flatMap Turn.transcript, ending)
  | (turns, .ok last) => (turns.flatMap Turn.transcript ++ [last.prompt], .finished)

end Repl

end ExactLisp
