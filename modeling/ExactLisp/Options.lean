import ExactLisp.Input

/-!
# Command line options

Options with a value are written `-i v`, `-iv`, `-i=v`, `--input v` or `--input=v`; short options
can be joined. A value that is an argument of its own does not begin with a dash, unless it is a
single dash. Every option stands at most once, and nothing but options is taken.
-/

namespace ExactLisp

/-- What the command line asks for. -/
structure Options where
  input : InputSource := .interactive
  string : Option String := none
  file : Option String := none
  config : Option String := none
  time : Bool := false
  verbose : Bool := false
  deriving DecidableEq, Repr

/-- The options that take a value. -/
inductive ValueOption where
  | input
  | string
  | file
  | config
  deriving DecidableEq, Repr

/-- The options that are switches. -/
inductive Switch where
  | time
  | verbose
  | help
  deriving DecidableEq, Repr

/-- An option of either sort. -/
inductive CommandOption where
  | valued (option : ValueOption)
  | switch (switch : Switch)
  deriving DecidableEq, Repr

namespace CommandOption

/-- The option with a long name. -/
def ofLongName? (name : String) : Option CommandOption :=
  if name = "input" then some (.valued .input)
  else if name = "string" then some (.valued .string)
  else if name = "file" then some (.valued .file)
  else if name = "config" then some (.valued .config)
  else if name = "time" then some (.switch .time)
  else if name = "verbose" then some (.switch .verbose)
  else if name = "help" then some (.switch .help)
  else none

/-- The option with a short name. -/
def ofShortName? (name : Char) : Option CommandOption :=
  if name = 'i' then some (.valued .input)
  else if name = 's' then some (.valued .string)
  else if name = 'f' then some (.valued .file)
  else if name = 'c' then some (.valued .config)
  else if name = 't' then some (.switch .time)
  else if name = 'v' then some (.switch .verbose)
  else if name = 'h' then some (.switch .help)
  else none

end CommandOption

/-- Why a command line gives no options to run with. -/
inductive OptionsEnd where
  /-- The command line is not understood. -/
  | usage (complaint : String)
  /-- Help is asked for. -/
  | help
  deriving DecidableEq, Repr

/-- Options while they are read, with those that were given already. -/
structure OptionsReader where
  options : Options
  given : List CommandOption

namespace OptionsReader

/-- Marks an option as given. -/
def mark (reader : OptionsReader) (option : CommandOption) : Except OptionsEnd OptionsReader :=
  if option ∈ reader.given then .error (.usage "an option is given more than once")
  else .ok { reader with given := option :: reader.given }

/-- Turns a switch on. -/
def turnOn (reader : OptionsReader) (switch : Switch) : Except OptionsEnd OptionsReader := do
  let reader ← reader.mark (.switch switch)
  match switch with
  | .time => return { reader with options.time := true }
  | .verbose => return { reader with options.verbose := true }
  | .help => .error .help

/-- A value that has to be the path of a file. -/
def pathValue (value : String) : Except OptionsEnd String :=
  if value.isEmpty then .error (.usage "a path is empty") else .ok value

/-- Gives an option its value. -/
def assign (reader : OptionsReader) (option : ValueOption) (value : String) :
    Except OptionsEnd OptionsReader := do
  let reader ← reader.mark (.valued option)
  match option with
  | .input =>
    match InputSource.ofName? false value with
    | some source => return { reader with options.input := source }
    | none => .error (.usage ("invalid value '" ++ value ++ "' for the input source"))
  | .string => return { reader with options.string := some value }
  | .file => return { reader with options.file := some (← pathValue value) }
  | .config => return { reader with options.config := some (← pathValue value) }

/-- Whether an argument can be the value of the option before it. -/
def isValue (argument : String) : Bool :=
  !argument.startsWith "-" || argument == "-"

/-- Reads joined short options. An option that is left without its value is given back. -/
def takeShort (reader : OptionsReader) :
    List Char → Except OptionsEnd (OptionsReader × Option ValueOption)
  | [] => .ok (reader, none)
  | name :: rest =>
    match CommandOption.ofShortName? name with
    | none => .error (.usage ("unexpected option '-" ++ name.toString ++ "'"))
    | some (.switch switch) => do
      let reader ← reader.turnOn switch
      takeShort reader rest
    | some (.valued option) =>
      match rest with
      | [] => .ok (reader, some option)
      | '=' :: value => do
        let reader ← reader.assign option (String.ofList value)
        return (reader, none)
      | value => do
        let reader ← reader.assign option (String.ofList value)
        return (reader, none)

/-- Reads a long option. An option that is left without its value is given back. -/
def takeLong (reader : OptionsReader) (argument : List Char) :
    Except OptionsEnd (OptionsReader × Option ValueOption) :=
  let (name, value) := argument.span (· != '=')
  match CommandOption.ofLongName? (String.ofList name), value with
  | none, _ => .error (.usage ("unexpected option '--" ++ String.ofList name ++ "'"))
  | some (.switch switch), [] => do
    let reader ← reader.turnOn switch
    return (reader, none)
  | some (.switch _), _ => .error (.usage "a switch takes no value")
  | some (.valued option), [] => .ok (reader, some option)
  | some (.valued option), _ :: value => do
    let reader ← reader.assign option (String.ofList value)
    return (reader, none)

/-- Reads arguments; `pending` is an option that waits for its value. -/
def takeAll (reader : OptionsReader) (pending : Option ValueOption) :
    List String → Except OptionsEnd OptionsReader
  | [] =>
    match pending with
    | some _ => .error (.usage "an option lacks its value")
    | none => .ok reader
  | argument :: rest =>
    match pending with
    | some option =>
      if isValue argument then do
        let reader ← reader.assign option argument
        takeAll reader none rest
      else .error (.usage "an option lacks its value")
    | none =>
      match argument.toList with
      | ['-', '-'] =>
        if rest.isEmpty then .ok reader else .error (.usage "only options are expected")
      | '-' :: '-' :: long => do
        let (reader, pending) ← reader.takeLong long
        takeAll reader pending rest
      | '-' :: name :: joined => do
        let (reader, pending) ← reader.takeShort (name :: joined)
        takeAll reader pending rest
      | _ => .error (.usage ("unexpected argument '" ++ argument ++ "'"))

end OptionsReader

/-- Reads the arguments of the command line. -/
def Options.ofArguments (arguments : List String) : Except OptionsEnd Options := do
  let reader ← OptionsReader.takeAll ⟨{}, []⟩ none arguments
  return reader.options

/-- What is shown when help is asked for. -/
def Options.help : String :=
  String.intercalate "\n"
    ["Lispy interactive REPL with multi-source input support",
      "",
      "Usage: lispy-repl [OPTIONS]",
      "",
      "Options:",
      "  -i, --input <INPUT>    Input source type [default: interactive] " ++
        "[possible values: interactive, string, file, pipe]",
      "  -s, --string <STRING>  Input string (when using --input string)",
      "  -f, --file <FILE>      Input file path (when using --input file)",
      "  -c, --config <CONFIG>  TOML configuration file",
      "  -t, --time             Print elapsed time after each form",
      "  -v, --verbose          Enable verbose output",
      "  -h, --help             Print help",
      ""]

end ExactLisp
