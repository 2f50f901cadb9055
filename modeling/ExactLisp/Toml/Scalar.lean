import ExactLisp.Decimal.Literal
import ExactLisp.Toml.Basic
import ExactLisp.Toml.Text

/-!
# Numbers, booleans and moments of configuration documents

Integers are signed 64-bit integers. A float is an IEEE double; a positive one that is too large for
any finite double is refused. Dates and times are checked against the calendar.
-/

namespace ExactLisp.Toml

/-- Reads digits, one or more; a single underscore may stand between two of them. The underscores
are dropped. -/
def digitRun (isDigit : Char → Bool) : Parser (List Char)
  | c :: '_' :: d :: rest =>
    if isDigit c then
      if isDigit d then consRead c (digitRun isDigit (d :: rest)) else some ([c], '_' :: d :: rest)
    else none
  | c :: d :: rest =>
    if isDigit c then
      if isDigit d then consRead c (digitRun isDigit (d :: rest)) else some ([c], d :: rest)
    else none
  | [c] => if isDigit c then some ([c], []) else none
  | [] => none
termination_by text => text.length

/-- Reads the digits of a decimal integer, which starts with a zero only if it is zero. -/
def decimalDigits : Parser (List Char)
  | '0' :: rest => some (['0'], rest)
  | text => digitRun isDigitChar text

/-- Reads an exponent with its mark. -/
def exponentPart : Parser Int
  | mark :: rest =>
    if mark = 'e' ∨ mark = 'E' then do
      let (negative, rest) := splitSign rest
      let (digits, rest) ← digitRun isDigitChar rest
      return (signed negative (digitsValue digits), rest)
    else none
  | [] => none

/-- The least number that rounds to infinity as a double. -/
def doubleOverflow : Nat := Nat.pow 2 1024 - Nat.pow 2 970

/-- Whether `significand · 10 ^ exponent` is too large for a finite double. Numbers of clearly
smaller or larger magnitude are told apart by their length alone. -/
def overflowsDouble (significand : Nat) (exponent : Int) : Bool :=
  let magnitude := (Nat.toDigits 10 significand).length + exponent
  if significand = 0 ∨ magnitude < 300 then false
  else if 320 < magnitude then true
  else if 0 ≤ exponent then decide (doubleOverflow ≤ significand * powerOfTen exponent.natAbs)
  else decide (doubleOverflow * powerOfTen exponent.natAbs ≤ significand)

/-- A float that was read with the given parts, unless it is too large. -/
def finiteFloat (negative : Bool) (whole fraction : List Char) (exponent : Int) (rest : List Char) :
    Option (Item × List Char) :=
  if !negative && overflowsDouble (digitsValue (whole ++ fraction)) (exponent - fraction.length)
  then none
  else
    let sign := if negative then "-" else ""
    some (.float (sign ++ String.ofList whole ++ "." ++ String.ofList fraction ++ "e" ++
      toString exponent), rest)

/-- Reads the rest of a text that has to begin with `word`. -/
def afterWord? (word : String) (text : List Char) : Option (List Char) :=
  if word.toList.isPrefixOf text then some (text.drop word.length) else none

/-- Reads infinity or not-a-number. -/
def specialFloat : Parser Item := fun text =>
  let (negative, rest) := splitSign text
  let sign := if negative then "-" else ""
  match afterWord? "inf" rest, afterWord? "nan" rest with
  | some rest, _ => some (.float (sign ++ "inf"), rest)
  | none, some rest => some (.float (sign ++ "nan"), rest)
  | none, none => none

/-- Reads a float: an integer with a fraction, an exponent, or both. -/
def decimalFloat : Parser Item := fun text => do
  let (negative, rest) := splitSign text
  let (whole, rest) ← decimalDigits rest
  match rest with
  | '.' :: rest =>
    let (fraction, rest) ← digitRun isDigitChar rest
    match exponentPart rest with
    | some (exponent, rest) => finiteFloat negative whole fraction exponent rest
    | none => finiteFloat negative whole fraction 0 rest
  | rest =>
    let (exponent, rest) ← exponentPart rest
    finiteFloat negative whole [] exponent rest

/-- An integer that was read, if it is a signed 64-bit integer. -/
def boundedInteger (value : Int) (rest : List Char) : Option (Item × List Char) :=
  if fitsInWord value then some (.integer value, rest) else none

/-- Reads digits of a base other than ten. -/
def basedInteger (base : Nat) : Parser Item := fun text => do
  let isDigit (c : Char) : Bool :=
    match hexDigit? c with
    | some value => decide (value < base)
    | none => false
  let (digits, rest) ← digitRun isDigit text
  let value := digits.foldl (fun value c => base * value + (hexDigit? c).getD 0) 0
  boundedInteger value rest

/-- Reads an integer. -/
def integer : Parser Item
  | '0' :: 'x' :: rest => basedInteger 16 rest
  | '0' :: 'o' :: rest => basedInteger 8 rest
  | '0' :: 'b' :: rest => basedInteger 2 rest
  | text => do
    let (negative, rest) := splitSign text
    let (digits, rest) ← decimalDigits rest
    boundedInteger (signed negative (digitsValue digits)) rest

/-- Reads a given number of digits. -/
def fixedNumber (width : Nat) : Parser Nat := fun text =>
  let digits := text.take width
  if digits.length = width && digits.all isDigitChar then
    some (digitsValue digits, text.drop width)
  else none

/-- Reads two digits that denote a number in a range. -/
def twoDigits (least most : Nat) : Parser Nat := fun text => do
  let (value, rest) ← fixedNumber 2 text
  if least ≤ value ∧ value ≤ most then some (value, rest) else none

/-- The text after a character that has to stand here. -/
def afterChar? (c : Char) : List Char → Option (List Char)
  | d :: rest => if d = c then some rest else none
  | [] => none

/-- The number of days of a month. -/
def daysInMonth (year month : Nat) : Nat :=
  if month = 2 then
    if year % 4 = 0 ∧ (year % 100 ≠ 0 ∨ year % 400 = 0) then 29 else 28
  else if month = 4 ∨ month = 6 ∨ month = 9 ∨ month = 11 then 30
  else 31

/-- The text after a date. -/
def afterDate? (text : List Char) : Option (List Char) := do
  let (year, rest) ← fixedNumber 4 text
  let rest ← afterChar? '-' rest
  let (month, rest) ← twoDigits 1 12 rest
  let rest ← afterChar? '-' rest
  let (_, rest) ← twoDigits 1 (daysInMonth year month) rest
  return rest

/-- The text after a time of day. -/
def afterTime? (text : List Char) : Option (List Char) := do
  let (_, rest) ← twoDigits 0 23 text
  let rest ← afterChar? ':' rest
  let (_, rest) ← twoDigits 0 59 rest
  let rest ← afterChar? ':' rest
  let (_, rest) ← twoDigits 0 60 rest
  match rest with
  | '.' :: fraction =>
    if (fraction.takeWhile isDigitChar).isEmpty then return rest
    else return fraction.dropWhile isDigitChar
  | rest => return rest

/-- The text after the offset of a time from universal time; `none` if an offset begins here and is
not a proper one. -/
def afterOffset? : List Char → Option (List Char)
  | c :: rest =>
    if c = 'Z' ∨ c = 'z' then some rest
    else if c = '+' ∨ c = '-' then do
      let (_, rest) ← twoDigits 0 23 rest
      let rest ← afterChar? ':' rest
      let (_, rest) ← twoDigits 0 59 rest
      return rest
    else some (c :: rest)
  | [] => some []

/-- The text after a date, a time of day, or both. -/
def afterMoment? (text : List Char) : Option (List Char) :=
  match afterDate? text with
  | some rest =>
    match rest with
    | mark :: time =>
      if mark = 'T' ∨ mark = 't' ∨ mark = ' ' then
        match afterTime? time with
        | some rest => afterOffset? rest
        | none => some rest
      else some rest
    | [] => some []
  | none => afterTime? text

/-- Reads a date, a time of day, or both. -/
def moment : Parser Item := fun text => do
  let rest ← afterMoment? text
  return (.moment (String.ofList (text.take (text.length - rest.length))), rest)

/-- Reads a value that is no string, array or table. -/
def scalar : Parser Item := fun text =>
  match text with
  | 't' :: _ => (afterWord? "true" text).map fun rest => (.boolean true, rest)
  | 'f' :: _ => (afterWord? "false" text).map fun rest => (.boolean false, rest)
  | _ => moment text <|> decimalFloat text <|> specialFloat text <|> integer text

end ExactLisp.Toml
