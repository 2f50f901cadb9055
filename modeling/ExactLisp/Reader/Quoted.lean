/-!
# String literals

Inside a string literal a quotation mark, a backslash, a line feed and a tab are written as a
backslash and a letter or mark; all other characters stand for themselves. Writing escapes exactly
these four, reading refuses every other escape.
-/

namespace ExactLisp

/-- The character that a backslash and `c` stand for. -/
def unescape? (c : Char) : Option Char :=
  if c = 'n' then some '\n'
  else if c = 't' then some '\t'
  else if c = '"' then some '"'
  else if c = '\\' then some '\\'
  else none

/-- One character as it stands between quotation marks. -/
def escapeChar (c : Char) : List Char :=
  if c = '"' then ['\\', '"']
  else if c = '\\' then ['\\', '\\']
  else if c = '\n' then ['\\', 'n']
  else if c = '\t' then ['\\', 't']
  else [c]

/-- A text as it stands between quotation marks. -/
def escapeText (text : List Char) : List Char :=
  text.flatMap escapeChar

/-- A text as a string literal. -/
def quotedText (text : List Char) : List Char :=
  '"' :: escapeText text ++ ['"']

/-- The characters that a string literal denotes, or the first character that may not follow a
backslash. A backslash always has a character after it, because the scanner takes both at once. -/
def unescapeText : List Char → Except Char (List Char)
  | [] => .ok []
  | ['\\'] => .error '\\'
  | '\\' :: c :: rest =>
    match unescape? c with
    | some meant => (meant :: ·) <$> unescapeText rest
    | none => .error c
  | c :: rest => (c :: ·) <$> unescapeText rest

end ExactLisp
