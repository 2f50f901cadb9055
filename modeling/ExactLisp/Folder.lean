import ExactLisp.Text.Basic

/-!
# Folders

Files are found by paths from one folder. A path is a sequence of names divided by slashes, and it
is followed name by name: empty names and single dots lead nowhere, two dots lead to the directory
around, and a path that starts with a slash starts at the root. The folder lies somewhere below the
root, and of the rest only a few places are known, which every system has.
-/

namespace ExactLisp

/-- Why a file cannot be read as text. -/
inductive ReadFailure where
  | notFound
  | isDirectory
  | notADirectory
  | nameTooLong
  /-- The path has a null character, which no name has. -/
  | nullInName
  | permissionDenied
  /-- The bytes are not valid UTF-8. -/
  | notText
  deriving DecidableEq, Repr

/-- The failure as messages name it. -/
def ReadFailure.message : ReadFailure → String
  | notFound => "No such file or directory (os error 2)"
  | isDirectory => "Is a directory (os error 21)"
  | notADirectory => "Not a directory (os error 20)"
  | nameTooLong => "File name too long (os error 36)"
  | nullInName => "file name contained an unexpected NUL byte"
  | permissionDenied => "Permission denied (os error 13)"
  | notText => "stream did not contain valid UTF-8"

/-- The text that bytes encode. -/
def decodeText (bytes : ByteArray) : Except ReadFailure String :=
  match String.fromUTF8? bytes with
  | some text => .ok text
  | none => .error .notText

/-- A means to read files by path. -/
abbrev FileReader : Type := String → Except ReadFailure ByteArray

/-- Reads a file as text. -/
def FileReader.text (read : FileReader) (path : String) : Except ReadFailure String := do
  decodeText (← read path)

/-- The files of a folder, by path. -/
structure Folder where
  files : List (String × ByteArray)

namespace Folder

/-- A place in the tree of directories: the names that lead to it from the root. -/
abbrev Place : Type := List (List Char)

/-- What is found at a place. -/
inductive Entry where
  | file (bytes : ByteArray)
  | directory

/-- The longest path that is followed, in bytes. -/
def pathLimit : Nat := 4095

/-- The longest name that is looked up, in bytes. -/
def nameLimit : Nat := 255

/-- Divides a path at its slashes. -/
def splitPath : List Char → List (List Char)
  | [] => [[]]
  | c :: rest =>
    match splitPath rest with
    | [] => [[c]]
    | name :: names => if c = '/' then [] :: name :: names else (c :: name) :: names

/-- Whether a name on a path leads nowhere. -/
def isIdleName (name : List Char) : Bool :=
  name.isEmpty || name == ['.']

/-- Where the folder lies. Its own name is empty, so that no path leads back into it by name. -/
def home : Place :=
  ["tmp".toList, []]

/-- The directories at the root. -/
def rootDirectories : List Place :=
  ["bin", "dev", "etc", "home", "lib", "opt", "proc", "root", "sbin", "sys", "tmp", "usr",
    "var"].map fun name => [name.toList]

/-- The files with their places; the null device counts as an empty file. -/
def placedFiles (folder : Folder) : List (Place × ByteArray) :=
  (["dev".toList, "null".toList], ByteArray.empty) :: folder.files.map fun (path, bytes) =>
    (home ++ (splitPath path.toList).filter (!isIdleName ·), bytes)

/-- What is found at a place. A directory is there because something in it is. -/
def entry? (folder : Folder) (place : Place) : Option Entry :=
  let files := folder.placedFiles
  match files.find? (·.1 == place) with
  | some (_, bytes) => some (.file bytes)
  | none =>
    if (home :: rootDirectories ++ files.map (·.1)).any place.isPrefixOf then some .directory
    else none

/-- Follows one name of a path. -/
def follow (folder : Folder) (place : Place) (name : List Char) : Except ReadFailure Place :=
  match folder.entry? place with
  | none => .error .notFound
  | some (.file _) => .error .notADirectory
  | some .directory =>
    if isIdleName name then .ok place
    else if name = ['.', '.'] then .ok place.dropLast
    else if nameLimit < byteCount name then .error .nameTooLong
    else .ok (place ++ [name])

/-- Where a path starts. -/
def startPlace (path : List Char) : Place :=
  if path.head? = some '/' then [] else home

/-- Reads a file. -/
def read (folder : Folder) : FileReader := fun path => do
  let path := path.toList
  if path.contains '\x00' then throw .nullInName
  if path.isEmpty then throw .notFound
  if pathLimit < byteCount path then throw .nameTooLong
  let place ← (splitPath path).foldlM folder.follow (startPlace path)
  match folder.entry? place with
  | none => throw .notFound
  | some .directory => throw .isDirectory
  | some (.file bytes) => return bytes

end Folder

end ExactLisp
