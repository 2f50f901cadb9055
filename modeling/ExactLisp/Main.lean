import ExactLisp.CommandLine

/-!
# The executable

The outermost layer: it reads files, the standard input and the clock, writes what the library
describes, and decides nothing else.
-/

namespace ExactLisp.Main

/-- Writes an output; `time` is what an elapsed time is shown as. -/
def write (time : String) : Output → IO Unit
  | .text text => IO.print text
  | .complaint text => IO.eprint text
  | .elapsed => IO.print (Output.elapsedLine time)

/-- Writes outputs that hold no elapsed time. -/
def writeAll (outputs : List Output) : IO Unit :=
  outputs.forM (write "")

/-- The number of a system error, which some calls report negated. -/
def errorNumber (code : UInt32) : UInt32 :=
  if code < 0x80000000 then code else 0 - code

/-- Why a file could not be read. -/
def readFailure : IO.Error → ReadFailure
  | .inappropriateType _ code _ => if errorNumber code = 20 then .notADirectory else .isDirectory
  | .invalidArgument _ code _ => if errorNumber code = 36 then .nameTooLong else .notFound
  | .permissionDenied _ _ _ => .permissionDenied
  | _ => .notFound

/-- Reads the bytes of a file. -/
def readPath (path : String) : IO (Except ReadFailure ByteArray) := do
  try
    return .ok (← IO.FS.readBinFile path)
  catch error =>
    return .error (readFailure error)

/-- A reader for the files that the options name. -/
def fileReader (options : Options) : IO FileReader := do
  let paths := [options.config, options.file].filterMap id
  let contents ← paths.mapM readPath
  return fun path => ((paths.zip contents).lookup path).getD (.error .notFound)

/-- Runs forms one after the other and shows how long each took. -/
def runForms (interpreter : Interpreter) (config : Config) :
    List Expr → Store → IO (Bool × Store)
  | [], store => return (true, store)
  | form :: forms, store => do
    let start ← IO.monoNanosNow
    let run ← IO.lazyPure fun _ => interpreter.runForm config form store
    let stop ← IO.monoNanosNow
    run.outputs.forM (write (Output.timeText (stop - start)))
    let (succeeded, store) ← runForms interpreter config forms run.store
    return (run.succeeded && succeeded, store)

/-- Runs a program and shows how long each form took. -/
def runProgram (interpreter : Interpreter) (config : Config) (source : String) (store : Store) :
    IO (Bool × Store) :=
  match parseForms source with
  | .error error => do
    write "" (Output.parseError error)
    return (false, store)
  | .ok forms => runForms interpreter config forms store

/-- Takes one turn of the read-eval-print loop. -/
def takeTurn (repl : Repl) (reading : Repl.Reading) : IO (Except Repl.Ending Repl) := do
  match repl.action reading with
  | .run program =>
    let (_, store) ← runProgram repl.interpreter repl.config program repl.store
    return .ok { repl.discardPending with store }
  | action =>
    let (outputs, next) := repl.perform action
    writeAll outputs
    return next

/-- Reads the bytes of one line, its line feed included; there are none at the end of the input. -/
partial def readLine (input : IO.FS.Stream) (bytes : ByteArray) : IO ByteArray := do
  let next ← input.read 1
  let bytes := bytes ++ next
  if next.isEmpty || next.data.contains 10 then return bytes else readLine input bytes

/-- Reads and takes lines until the input or the loop ends. -/
partial def interact (repl : Repl) (input : IO.FS.Stream) : IO UInt32 := do
  writeAll [repl.prompt]
  (← IO.getStdout).flush
  let typed ← readLine input ByteArray.empty
  if typed.isEmpty then return 0
  match ← takeTurn repl (CommandLine.reading typed) with
  | .ok next => interact next input
  | .error ending =>
    let transcript := CommandLine.ended ending
    writeAll transcript.outputs
    return transcript.exitCode.toUInt32

/-- Reads the standard input to its end. -/
partial def readAll (input : IO.FS.Stream) (bytes : ByteArray) : IO ByteArray := do
  let more ← input.read 65536
  if more.isEmpty then return bytes else readAll input (bytes ++ more)

/-- Runs the program with settings. -/
def runConfigured (options : Options) (config : Config) (files : FileReader) : IO UInt32 := do
  let input ← IO.getStdin
  match options.input with
  | .interactive =>
    writeAll [Repl.banner]
    interact (Repl.start config) input
  | source =>
    let piped ← if source = .pipe then readAll input ByteArray.empty else pure ByteArray.empty
    match InputRequest.ofArguments source options.file options.string options.verbose >>=
      fun request => request.read files piped with
    | .error error =>
      writeAll (Transcript.failed error.message []).outputs
      return 1
    | .ok program =>
      let (interpreter, store) := Interpreter.create Store.empty
      let (succeeded, _) ← runProgram interpreter config program.content store
      return if succeeded then 0 else 1

end ExactLisp.Main

/-- The entry point. -/
def main (arguments : List String) : IO UInt32 := do
  match ExactLisp.Options.ofArguments arguments with
  | .error reason =>
    let transcript := ExactLisp.CommandLine.refuse reason
    ExactLisp.Main.writeAll transcript.outputs
    return transcript.exitCode.toUInt32
  | .ok options =>
    let files ← ExactLisp.Main.fileReader options
    match ExactLisp.CommandLine.config options files with
    | .error error =>
      ExactLisp.Main.writeAll (ExactLisp.Transcript.failed
        ("loading config " ++ options.config.getD "") error.causes).outputs
      return 1
    | .ok config => ExactLisp.Main.runConfigured options config files
