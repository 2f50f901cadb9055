import ExactLisp.Folder

/-!
# Where programs come from

A program is typed in, given as a string, read from a file, or piped in. All but the first are read
as a whole before they run.
-/

namespace ExactLisp

/-- Where a program comes from. -/
inductive InputSource where
  | interactive
  | string
  | file
  | pipe
  deriving DecidableEq, Repr

namespace InputSource

/-- All sources. -/
def all : List InputSource := [interactive, string, file, pipe]

/-- The name of a source. -/
def name : InputSource → String
  | interactive => "interactive"
  | string => "string"
  | file => "file"
  | pipe => "pipe"

/-- The source with a name; ASCII letters may be told apart by case or not. -/
def ofName? (ignoreCase : Bool) (name : String) : Option InputSource :=
  let fold (text : String) : List Char :=
    if ignoreCase then text.toList.map Char.toLower else text.toList
  all.find? fun source => fold source.name == fold name

end InputSource

/-- Why a program cannot be read. -/
inductive InputError where
  | missingFile
  | missingString
  | unreadableFile (path : String) (failure : ReadFailure)
  | unreadablePipe (failure : ReadFailure)
  /-- An interactive program cannot be read as a whole. -/
  | interactive
  deriving DecidableEq, Repr

/-- The text of an input error. -/
def InputError.message : InputError → String
  | missingFile => "--file argument required when using --input file"
  | missingString => "--string argument required when using --input string"
  | unreadableFile path failure => "Error reading file '" ++ path ++ "': " ++ failure.message
  | unreadablePipe failure => "Error reading from stdin: " ++ failure.message
  | interactive => "Interactive mode not supported in this context"

/-- A request to read a program. -/
structure InputRequest where
  source : InputSource
  file : Option String
  string : Option String
  verbose : Bool
  deriving DecidableEq, Repr

/-- A program text and a name for where it came from. -/
structure InputContent where
  content : String
  name : String
  deriving DecidableEq, Repr

namespace InputRequest

/-- Whether what the source needs is there. -/
def validate (request : InputRequest) : Except InputError Unit :=
  match request.source, request.file, request.string with
  | .file, none, _ => .error .missingFile
  | .string, _, none => .error .missingString
  | _, _, _ => .ok ()

/-- The request for a source with only what that source needs; an interactive one is refused. -/
def ofArguments (source : InputSource) (file string : Option String) (verbose : Bool) :
    Except InputError InputRequest :=
  match source, file, string with
  | .file, some path, _ => .ok ⟨.file, some path, none, verbose⟩
  | .file, none, _ => .error .missingFile
  | .string, _, some content => .ok ⟨.string, none, some content, verbose⟩
  | .string, _, none => .error .missingString
  | .pipe, _, _ => .ok ⟨.pipe, none, none, verbose⟩
  | .interactive, _, _ => .error .interactive

/-- Reads the program; `piped` are the bytes of the standard input. -/
def read (request : InputRequest) (files : FileReader) (piped : ByteArray) :
    Except InputError InputContent :=
  match request.source, request.file, request.string with
  | .file, some path, _ =>
    match files.text path with
    | .ok content => .ok ⟨content, path⟩
    | .error failure => .error (.unreadableFile path failure)
  | .file, none, _ => .error .missingFile
  | .string, _, some content => .ok ⟨content, "<string>"⟩
  | .string, _, none => .error .missingString
  | .pipe, _, _ =>
    match decodeText piped with
    | .ok content => .ok ⟨content, "<stdin>"⟩
    | .error failure => .error (.unreadablePipe failure)
  | .interactive, _, _ => .error .interactive

end InputRequest

end ExactLisp
