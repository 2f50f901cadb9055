import ExactLisp.Toml.Scalar

/-!
# Reading configuration documents

A document is read line by line into one table. Values may nest only to a fixed depth, which is also
what the recursion on values runs on; repetition within a level ends because each round takes at
least one character.
-/

namespace ExactLisp.Toml

/-- Values and keys may nest to less than this depth. -/
def nestingLimit : Nat := 80

/-- Characters of keys that need no quotes. -/
def isBareKeyChar (c : Char) : Bool :=
  isDigitChar c || ('a' ≤ c && c ≤ 'z') || ('A' ≤ c && c ≤ 'Z') || c == '_' || c == '-'

/-- Reads one part of a key. -/
def keyPart : Parser String
  | '"' :: rest => (basicString rest).map fun (key, rest) => (String.ofList key, rest)
  | '\'' :: rest => (literalString rest).map fun (key, rest) => (String.ofList key, rest)
  | text =>
    let (key, rest) := text.span isBareKeyChar
    if key.isEmpty then none else some (String.ofList key, rest)

/-- Reads the parts of a key, with blanks around each, up to `rounds` of them. -/
def keyParts : Nat → Parser (List String)
  | 0, _ => none
  | rounds + 1, text => do
    let (part, rest) ← keyPart (skipBlanks text)
    match skipBlanks rest with
    | '.' :: rest => do
      let (parts, rest) ← keyParts rounds rest
      return (part :: parts, rest)
    | rest => return ([part], rest)

/-- A key with dots: the parts before the last one, and the last one. -/
structure Key where
  path : List String
  last : String
  deriving DecidableEq, Repr

/-- Reads a key. -/
def key : Parser Key := fun text => do
  let (parts, rest) ← keyParts (nestingLimit - 1) text
  match parts.getLast? with
  | some last => some (⟨parts.dropLast, last⟩, rest)
  | none => none

/-- Reads items separated by commas up to a closing bracket, after the opening one. Blanks, line
ends and comments may stand between them, and a comma after the last. -/
def arrayItems (value : Parser Item) : Nat → Parser (List Item)
  | 0, _ => none
  | rounds + 1, text =>
    match skipGap false text with
    | ']' :: rest => some ([], rest)
    | text => do
      let (item, rest) ← value text
      match skipGap false rest with
      | ',' :: rest => do
        let (items, rest) ← arrayItems value rounds rest
        return (item :: items, rest)
      | ']' :: rest => return ([item], rest)
      | _ => none

/-- Reads a key, an equals sign and a value. -/
def keyValue (value : Parser Item) : Parser (Key × Item) := fun text => do
  let (key, rest) ← key text
  let rest ← afterChar? '=' rest
  let (item, rest) ← value (skipBlanks rest)
  return ((key, item), rest)

/-- Reads the entries of an inline table up to its closing brace, and adds them to a table. -/
def inlineEntries (value : Parser Item) : Nat → Table → Parser Table
  | 0, _, _ => none
  | rounds + 1, table, text => do
    let ((key, item), rest) ← keyValue value text
    let table ← table.addValue key.path key.last item
    match skipBlanks rest with
    | ',' :: rest => inlineEntries value rounds table rest
    | '\x7d' :: rest => return (table, rest)
    | _ => none

/-- Reads an inline table after its opening brace. -/
def inlineTable (value : Parser Item) : Parser Item := fun text => do
  let (table, rest) ← match skipBlanks text with
    | '\x7d' :: rest => some (Table.ofOrigin .inline, rest)
    | _ => inlineEntries value text.length (Table.ofOrigin .inline) text
  return (table.toItem, rest)

/-- Reads a value inside which others may nest to a depth. -/
def value : Nat → Parser Item
  | _, '"' :: rest => (anyString ('"' :: rest)).map fun (text, rest) => (.string text, rest)
  | _, '\'' :: rest => (anyString ('\'' :: rest)).map fun (text, rest) => (.string text, rest)
  | depth + 1, '[' :: rest =>
    (arrayItems (value depth) (rest.length + 1) rest).map fun (items, rest) => (.array items, rest)
  | depth + 1, '\x7b' :: rest => inlineTable (value depth) rest
  | _, text => scalar text

/-- A document that is being read: what was read so far, and the header of the current table. -/
structure Document where
  root : Table
  header : List String

namespace Document

/-- The document before its first line. -/
def initial : Document := ⟨Table.ofOrigin .header, []⟩

/-- Adds a value to the current table. -/
def addValue (document : Document) (key : Key) (item : Item) : Option Document := do
  let root ← document.root.alter .implied (·.addValue key.path key.last item) document.header
  return { document with root }

/-- Takes one line or one value that spans several, after the blanks before it. -/
def takeLine (document : Document) : List Char → Option (Document × List Char)
  | '[' :: '[' :: text => do
    let (key, rest) ← key text
    let rest ← afterChar? ']' rest
    let rest ← afterChar? ']' rest
    let rest ← restOfLine? rest
    let root ← document.root.openElement key.path key.last
    return (⟨root, key.path ++ [key.last]⟩, rest)
  | '[' :: text => do
    let (key, rest) ← key text
    let rest ← afterChar? ']' rest
    let rest ← restOfLine? rest
    let root ← document.root.openTable key.path key.last
    return (⟨root, key.path ++ [key.last]⟩, rest)
  | text =>
    match restOfLine? text with
    | some rest => some (document, rest)
    | none => do
      let ((key, item), rest) ← keyValue (value (nestingLimit - 1)) text
      let rest ← restOfLine? rest
      let document ← document.addValue key item
      return (document, rest)

/-- Takes lines until the text ends, at most `rounds`. -/
def takeLines : Nat → Document → List Char → Option Document
  | _, document, [] => some document
  | 0, _, _ => none
  | rounds + 1, document, text => do
    let (document, rest) ← document.takeLine (skipBlanks text)
    takeLines rounds document rest

end Document

/-- Reads a document; a byte order mark may stand before it. -/
def read? (source : String) : Option Table :=
  let text := match source.toList with
    | '\ufeff' :: rest => rest
    | text => text
  (Document.takeLines (text.length + 1) .initial text).map (·.root)

end ExactLisp.Toml
