import ExactLisp.Reader.Token

/-!
# Blanks, comments and strings of configuration documents

A parser takes the characters that are left, and gives what it read and what is left then. Line ends
are a line feed, or a carriage return and a line feed; a carriage return alone stands nowhere.
-/

namespace ExactLisp.Toml

/-- Reads something off the front of a text. -/
abbrev Parser (α : Type) : Type := List Char → Option (α × List Char)

/-- Blanks within a line. -/
def isBlank (c : Char) : Bool :=
  c == ' ' || c == '\t'

/-- Characters that may stand in comments and strings: all but control characters, with the tab
allowed. -/
def isPrintable (c : Char) : Bool :=
  c == '\t' || (decide (' ' ≤ c) && c != '\x7f')

/-- Drops blanks within a line. -/
def skipBlanks (text : List Char) : List Char :=
  text.dropWhile isBlank

/-- Drops a comment, if one stands here. -/
def skipComment : List Char → List Char
  | '#' :: rest => rest.dropWhile isPrintable
  | text => text

/-- The text after a line end or at the end of the document. -/
def lineEnd? : List Char → Option (List Char)
  | [] => some []
  | '\n' :: rest => some rest
  | '\r' :: '\n' :: rest => some rest
  | _ => none

/-- The text after the rest of a line that holds at most blanks and a comment. -/
def restOfLine? (text : List Char) : Option (List Char) :=
  lineEnd? (skipComment (skipBlanks text))

/-- Drops blanks, line ends and comments; `inComment` tells whether a comment is open. -/
def skipGap : Bool → List Char → List Char
  | _, [] => []
  | _, '\n' :: rest => skipGap false rest
  | _, '\r' :: '\n' :: rest => skipGap false rest
  | true, c :: rest => if isPrintable c then skipGap true rest else c :: rest
  | false, c :: rest =>
    if isBlank c then skipGap false rest
    else if c = '#' then skipGap true rest
    else c :: rest

/-- The value of a hexadecimal digit. -/
def hexDigit? (c : Char) : Option Nat :=
  if isDigitChar c then some (c.toNat - '0'.toNat)
  else if 'a' ≤ c ∧ c ≤ 'f' then some (c.toNat - 'a'.toNat + 10)
  else if 'A' ≤ c ∧ c ≤ 'F' then some (c.toNat - 'A'.toNat + 10)
  else none

/-- The character whose number is written in hexadecimal digits. -/
def hexChar? (digits : List Char) : Option Char := do
  let values ← digits.mapM hexDigit?
  let code := values.foldl (fun code value => 16 * code + value) 0
  if code.isValidChar then some (Char.ofNat code) else none

/-- The character that a backslash and `c` stand for. -/
def escaped? (c : Char) : Option Char :=
  if c = 'b' then some '\x08'
  else if c = 't' then some '\t'
  else if c = 'n' then some '\n'
  else if c = 'f' then some '\x0c'
  else if c = 'r' then some '\r'
  else if c = '"' then some '"'
  else if c = '\\' then some '\\'
  else none

/-- Puts a character in front of what a parser read. -/
def consRead (c : Char) (read : Option (List Char × List Char)) : Option (List Char × List Char) :=
  read.map fun (text, rest) => (c :: text, rest)

/-- Reads a string on one line, with escapes, after its opening quotation mark. -/
def basicString : Parser (List Char)
  | '"' :: rest => some ([], rest)
  | '\\' :: 'u' :: a :: b :: c :: d :: rest =>
    (hexChar? [a, b, c, d]).bind fun meant => consRead meant (basicString rest)
  | '\\' :: 'U' :: a :: b :: c :: d :: e :: f :: g :: h :: rest =>
    (hexChar? [a, b, c, d, e, f, g, h]).bind fun meant => consRead meant (basicString rest)
  | '\\' :: c :: rest => (escaped? c).bind fun meant => consRead meant (basicString rest)
  | c :: rest => if isPrintable c && c != '\\' then consRead c (basicString rest) else none
  | [] => none

/-- Reads a string on one line, without escapes, after its opening apostrophe. -/
def literalString : Parser (List Char)
  | '\'' :: rest => some ([], rest)
  | c :: rest => if isPrintable c then consRead c (literalString rest) else none
  | [] => none

/-- Whether only blanks are left on this line. -/
def endsLine (text : List Char) : Bool :=
  match skipBlanks text with
  | '\n' :: _ => true
  | '\r' :: '\n' :: _ => true
  | _ => false

/--
Reads a string on several lines, with escapes, after its opening. Up to two quotation marks may
stand directly before the closing three. A backslash at the end of a line drops everything up to the
next character that is no blank and no line end; `trimming` tells that this is going on.
-/
def basicLines : Bool → Parser (List Char)
  | _, '"' :: '"' :: '"' :: '"' :: '"' :: rest => some (['"', '"'], rest)
  | _, '"' :: '"' :: '"' :: '"' :: rest => some (['"'], rest)
  | _, '"' :: '"' :: '"' :: rest => some ([], rest)
  | _, '"' :: rest => consRead '"' (basicLines false rest)
  | trimming, '\r' :: '\n' :: rest =>
    if trimming then basicLines true rest else consRead '\n' (basicLines false rest)
  | trimming, '\n' :: rest =>
    if trimming then basicLines true rest else consRead '\n' (basicLines false rest)
  | _, '\\' :: 'u' :: a :: b :: c :: d :: rest =>
    (hexChar? [a, b, c, d]).bind fun meant => consRead meant (basicLines false rest)
  | _, '\\' :: 'U' :: a :: b :: c :: d :: e :: f :: g :: h :: rest =>
    (hexChar? [a, b, c, d, e, f, g, h]).bind fun meant => consRead meant (basicLines false rest)
  | _, '\\' :: c :: rest =>
    if endsLine (c :: rest) then basicLines true rest
    else (escaped? c).bind fun meant => consRead meant (basicLines false rest)
  | trimming, c :: rest =>
    if trimming && isBlank c then basicLines true rest
    else if isPrintable c && c != '\\' then consRead c (basicLines false rest)
    else none
  | _, [] => none

/-- Reads a string on several lines, without escapes, after its opening. -/
def literalLines : Parser (List Char)
  | '\'' :: '\'' :: '\'' :: '\'' :: '\'' :: rest => some (['\'', '\''], rest)
  | '\'' :: '\'' :: '\'' :: '\'' :: rest => some (['\''], rest)
  | '\'' :: '\'' :: '\'' :: rest => some ([], rest)
  | '\r' :: '\n' :: rest => consRead '\n' (literalLines rest)
  | c :: rest => if isPrintable c || c == '\n' then consRead c (literalLines rest) else none
  | [] => none

/-- Drops a line end directly after the opening of a string on several lines. -/
def skipFirstLineEnd (text : List Char) : List Char :=
  match text with
  | [] => []
  | text => (lineEnd? text).getD text

/-- Reads a string of any of the four kinds. -/
def anyString : Parser String
  | '"' :: '"' :: '"' :: rest => (basicLines false (skipFirstLineEnd rest)).map asString
  | '"' :: rest => (basicString rest).map asString
  | '\'' :: '\'' :: '\'' :: rest => (literalLines (skipFirstLineEnd rest)).map asString
  | '\'' :: rest => (literalString rest).map asString
  | _ => none
where
  asString (read : List Char × List Char) : String × List Char := (String.ofList read.1, read.2)

end ExactLisp.Toml
