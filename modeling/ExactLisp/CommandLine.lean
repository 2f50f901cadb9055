import ExactLisp.Options
import ExactLisp.Repl
import ExactLisp.TypedLine

/-!
# The command line

What the program does as a whole, as a function of its arguments, the files it can read and its
standard input. The configuration is read first; an interactive program is then run line by line,
any other as a whole.
-/

namespace ExactLisp

/-- What a run of the program shows, and its exit code. -/
structure Transcript where
  outputs : List Output
  exitCode : Nat
  deriving DecidableEq, Repr

namespace Transcript

/-- The lines that list the causes of an error; several causes are numbered. -/
def causeLines : List String → List String
  | [] => []
  | [cause] => ["", "Caused by:", "    " ++ cause]
  | causes =>
    "" :: "Caused by:" ::
      causes.zipIdx.map fun (cause, index) => "    " ++ toString index ++ ": " ++ cause

/-- A run that ends with an error and its causes. -/
def failed (message : String) (causes : List String) : Transcript :=
  let lines := ("Error: " ++ message) :: causeLines causes
  ⟨[.complaint (String.join (lines.map (· ++ "\n")))], 1⟩

/-- Shows something before everything else. -/
def after (outputs : List Output) (transcript : Transcript) : Transcript :=
  { transcript with outputs := outputs ++ transcript.outputs }

end Transcript

/-- Divides bytes into lines; each line keeps its line feed. -/
def splitLines (bytes : ByteArray) : List ByteArray :=
  let (lines, last) := bytes.foldl
    (fun (lines, line) byte =>
      if byte = 10 then (line.push byte :: lines, ByteArray.empty) else (lines, line.push byte))
    ([], ByteArray.empty)
  if last.isEmpty then lines.reverse else (last :: lines).reverse

namespace CommandLine

/-- The settings to run with: those of the configuration file, if one is named, and the timing that
the command line asks for. -/
def config (options : Options) (files : FileReader) : Except ConfigError Config := do
  let config ← match options.config with
    | some path => Config.ofFile files path
    | none => .ok {}
  return { config with showTiming := config.showTiming || options.time }

/-- Runs a program that is read as a whole. -/
def runWhole (options : Options) (config : Config) (files : FileReader) (piped : ByteArray) :
    Transcript :=
  let input := do
    let request ← InputRequest.ofArguments options.input options.file options.string options.verbose
    request.read files piped
  match input with
  | .error error => .failed error.message []
  | .ok input =>
    let (interpreter, store) := Interpreter.create Store.empty
    let run := interpreter.runProgram config input.content store
    ⟨run.outputs, if run.succeeded then 0 else 1⟩

/-- What the line editor makes of the bytes of a line. -/
def reading (typed : ByteArray) : Repl.Reading :=
  match decodeText typed with
  | .error failure => .failed failure
  | .ok text => .line (String.ofList (TypedLine.content text.toList))

/-- How the program ends with the read-eval-print loop. -/
def ended : Repl.Ending → Transcript
  | .finished => ⟨[], 0⟩
  | .unreadable failure => .failed failure.message [failure.message]

/-- Runs the read-eval-print loop on an input. -/
def runInteractive (config : Config) (typed : ByteArray) : Transcript :=
  let (outputs, ending) := (Repl.start config).run ((splitLines typed).map reading)
  (ended ending).after (Repl.banner :: outputs)

/-- Runs the program with options. -/
def runWith (options : Options) (files : FileReader) (input : ByteArray) : Transcript :=
  match config options files with
  | .error error =>
    .failed ("loading config " ++ options.config.getD "") error.causes
  | .ok config =>
    match options.input with
    | .interactive => runInteractive config input
    | _ => runWhole options config files input

/-- The run for a command line that gives no options to run with. -/
def refuse : OptionsEnd → Transcript
  | .usage complaint => ⟨[.complaint ("error: " ++ complaint ++ "\n")], 2⟩
  | .help => ⟨[.text Options.help], 0⟩

/-- Runs the program. -/
def run (arguments : List String) (files : FileReader) (input : ByteArray) : Transcript :=
  match Options.ofArguments arguments with
  | .error reason => refuse reason
  | .ok options => runWith options files input

end CommandLine

end ExactLisp
