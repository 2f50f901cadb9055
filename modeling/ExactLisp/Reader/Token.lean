import ExactLisp.Text.Position

/-!
# Tokens

A source text is a sequence of tokens separated by gaps. A gap is made of blanks (space, tab,
carriage return, line feed) and comments (from `;` to the end of the line). Tokens may touch each
other: only two words need a gap between them, because a word is a longest run of word characters.

The scanner is a fold over the characters. Its state after a text depends on that text alone, so
scanning a concatenation is scanning the first part and going on with the second.
-/

namespace ExactLisp

/-- Characters between tokens. -/
def isBlankChar (c : Char) : Bool :=
  c == ' ' || c == '\t' || c == '\r' || c == '\n'

/-- The decimal digits. -/
def isDigitChar (c : Char) : Bool :=
  decide ('0' ≤ c) && decide (c ≤ '9')

/-- Characters of words: ASCII letters and digits and a fixed set of marks. -/
def isWordChar (c : Char) : Bool :=
  isDigitChar c || (decide ('a' ≤ c) && decide (c ≤ 'z')) || (decide ('A' ≤ c) && decide (c ≤ 'Z'))
    || "!$%&*/:<=>?^_~+-.#".toList.contains c

/-- A mark that stands before a form and changes how it is read. -/
inductive Mark where
  /-- The quote mark: what follows is data. -/
  | quote
  /-- The comma: what follows is code inside data. -/
  | unquote
  deriving DecidableEq, Repr

/-- The smallest units of the grammar. -/
inductive Token where
  | opening
  | closing
  | mark (mark : Mark)
  /-- A string literal, as written between its quotation marks. -/
  | text (raw : List Char)
  /-- A longest run of word characters. -/
  | word (run : List Char)
  deriving DecidableEq, Repr

/-- A token together with the stretch of the source it was read from. -/
structure Lexeme where
  token : Token
  extent : Extent
  deriving DecidableEq, Repr

/-- Where the scanner stands between two characters. The characters of an unfinished token are kept
latest first. -/
inductive ScanMode where
  /-- Between tokens. -/
  | gap
  /-- Inside a comment. -/
  | comment
  /-- Inside a word that began at `start`. -/
  | word (start : Nat) (seen : List Char)
  /-- Inside a string literal that began at `start`. -/
  | text (start : Nat) (seen : List Char)
  /-- Directly after a backslash inside a string literal. -/
  | escape (start : Nat) (seen : List Char)
  /-- No token starts at `offset`; the rest of the text is not looked at. -/
  | stuck (offset : Nat)
  deriving DecidableEq, Repr

/-- The state of the scanner: its mode, the offset of the next character, and the tokens found so
far, latest first. -/
structure Scanner where
  mode : ScanMode
  offset : Nat
  found : List Lexeme
  deriving DecidableEq, Repr

namespace Scanner

/-- The scanner before a text that starts at `offset`. -/
def starting (offset : Nat) : Scanner := ⟨.gap, offset, []⟩

/-- Takes a character that stands outside every token. -/
def stepGap (offset : Nat) (found : List Lexeme) (c : Char) : Scanner :=
  let single (token : Token) : Scanner :=
    ⟨.gap, offset + 1, ⟨token, ⟨offset, offset + 1⟩⟩ :: found⟩
  if isBlankChar c then ⟨.gap, offset + 1, found⟩
  else if c = ';' then ⟨.comment, offset + 1, found⟩
  else if c = '(' then single .opening
  else if c = ')' then single .closing
  else if c = '\'' then single (.mark .quote)
  else if c = ',' then single (.mark .unquote)
  else if c = '"' then ⟨.text offset [], offset + 1, found⟩
  else if isWordChar c then ⟨.word offset [c], offset + 1, found⟩
  else ⟨.stuck offset, offset + 1, found⟩

/-- The word that ends before `stop`. -/
def wordLexeme (start : Nat) (seen : List Char) (stop : Nat) : Lexeme :=
  ⟨.word seen.reverse, ⟨start, stop⟩⟩

/-- Takes one character. -/
def step (scanner : Scanner) (c : Char) : Scanner :=
  let ⟨mode, offset, found⟩ := scanner
  match mode with
  | .gap => stepGap offset found c
  | .comment =>
    if c = '\n' || c = '\r' then ⟨.gap, offset + 1, found⟩ else ⟨.comment, offset + 1, found⟩
  | .word start seen =>
    if isWordChar c then ⟨.word start (c :: seen), offset + 1, found⟩
    else stepGap offset (wordLexeme start seen offset :: found) c
  | .text start seen =>
    if c = '"' then
      ⟨.gap, offset + 1, ⟨.text seen.reverse, ⟨start, offset + 1⟩⟩ :: found⟩
    else if c = '\\' then ⟨.escape start (c :: seen), offset + 1, found⟩
    else ⟨.text start (c :: seen), offset + 1, found⟩
  | .escape start seen => ⟨.text start (c :: seen), offset + 1, found⟩
  | .stuck place => ⟨.stuck place, offset + 1, found⟩

/-- Takes all characters of a text. -/
def advance (scanner : Scanner) (text : List Char) : Scanner :=
  text.foldl step scanner

/-- Scanning a concatenation is scanning its first part and going on with the second. -/
theorem advance_append (scanner : Scanner) (first second : List Char) :
    scanner.advance (first ++ second) = (scanner.advance first).advance second :=
  List.foldl_append

end Scanner

/-- Where scanning came to its end. -/
inductive ScanEnd where
  /-- The whole text was split into tokens and gaps; `offset` is its length. -/
  | complete (offset : Nat)
  /-- No complete token starts at `offset`, and the text goes on there. -/
  | stuck (offset : Nat)
  deriving DecidableEq, Repr

/-- The offset at which no further token was found. -/
def ScanEnd.offset : ScanEnd → Nat
  | complete offset => offset
  | stuck offset => offset

/-- The tokens of a text, in order, and how the text ends. -/
structure Scan where
  lexemes : List Lexeme
  ending : ScanEnd
  deriving DecidableEq, Repr

/-- Ends the text: a word is complete there, a string literal is not. -/
def Scanner.finish (scanner : Scanner) : Scan :=
  match scanner.mode with
  | .gap | .comment => ⟨scanner.found.reverse, .complete scanner.offset⟩
  | .word start seen =>
    ⟨(Scanner.wordLexeme start seen scanner.offset :: scanner.found).reverse,
      .complete scanner.offset⟩
  | .text start _ | .escape start _ => ⟨scanner.found.reverse, .stuck start⟩
  | .stuck place => ⟨scanner.found.reverse, .stuck place⟩

/-- Splits a text into its tokens. -/
def Scan.ofText (source : List Char) : Scan :=
  ((Scanner.starting 0).advance source).finish

end ExactLisp
