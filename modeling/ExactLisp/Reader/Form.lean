import ExactLisp.Reader.Token

/-!
# Forms

The token sequence of a source text is read as a sequence of forms: words, string literals, marked
forms and lists. Reading is a stack machine that takes one token at a time. The stack holds what is
still open, innermost first: lists that wait for their closing parenthesis and marks that wait for
their form.
-/

namespace ExactLisp

/-- A form as it is written, with the stretch of the source it covers. -/
inductive Form where
  | word (extent : Extent) (run : List Char)
  | text (extent : Extent) (raw : List Char)
  | marked (extent : Extent) (mark : Mark) (form : Form)
  | list (extent : Extent) (items : List Form)

/-- The stretch of the source that a form covers. -/
def Form.extent : Form → Extent
  | word extent _ => extent
  | text extent _ => extent
  | marked extent _ _ => extent
  | list extent _ => extent

/-- Something begun that waits for a form. -/
inductive Opened where
  /-- A list that began at `start`, with the items read so far, latest first. -/
  | list (start : Nat) (items : List Form)
  /-- A mark at `start` without its form. -/
  | mark (start : Nat) (mark : Mark)

/-- What a source text is read as. -/
inductive Goal where
  /-- Any number of forms. -/
  | program
  /-- Exactly one form. -/
  | single
  deriving DecidableEq, Repr

/-- The state of the reader: what is open, innermost first, and the finished forms of the top
level, latest first. -/
structure Reader where
  opened : List Opened
  finished : List Form

/-- What would have been accepted where reading stopped. -/
inductive Expectation where
  /-- Nothing of the text could be read. -/
  | whole (goal : Goal)
  /-- A form. -/
  | form
  /-- A form or the end of the text. -/
  | formOrEnd
  /-- The end of the text. -/
  | finish
  deriving DecidableEq, Repr

/-- Where a text stops to be readable, and what would have been accepted there. -/
structure Misread where
  offset : Nat
  expectation : Expectation
  deriving DecidableEq, Repr

namespace Reader

/-- The reader before the first token. -/
def initial : Reader := ⟨[], []⟩

/-- Hands a finished form to what waits for it: marks are completed at once, a list takes it as its
next item, and with nothing open it is a form of the top level. -/
def attach (finished : List Form) (form : Form) : List Opened → Reader
  | [] => ⟨[], form :: finished⟩
  | .list start items :: opened => ⟨.list start (form :: items) :: opened, finished⟩
  | .mark start mark :: opened =>
    attach finished (.marked ⟨start, form.extent.stop⟩ mark form) opened

/-- What is acceptable in a state of the reader. -/
def expects (goal : Goal) (reader : Reader) : Expectation :=
  match reader.opened, goal, reader.finished with
  | [], .program, _ => .formOrEnd
  | [], .single, _ :: _ => .finish
  | _, _, _ => .form

/-- The failure to go on at `offset`. -/
def misread (goal : Goal) (reader : Reader) (offset : Nat) : Misread :=
  ⟨offset, if offset = 0 then .whole goal else reader.expects goal⟩

/-- Takes one token. -/
def step (goal : Goal) (reader : Reader) (lexeme : Lexeme) : Except Misread Reader :=
  let ⟨token, extent⟩ := lexeme
  if reader.expects goal = .finish then .error (reader.misread goal extent.start)
  else
    match token, reader.opened with
    | .opening, opened => .ok ⟨.list extent.start [] :: opened, reader.finished⟩
    | .mark mark, opened => .ok ⟨.mark extent.start mark :: opened, reader.finished⟩
    | .word run, opened => .ok (attach reader.finished (.word extent run) opened)
    | .text raw, opened => .ok (attach reader.finished (.text extent raw) opened)
    | .closing, .list start items :: opened =>
      .ok (attach reader.finished (.list ⟨start, extent.stop⟩ items.reverse) opened)
    | .closing, _ => .error (reader.misread goal extent.start)

/-- Takes all tokens of a sequence. -/
def advance (goal : Goal) (reader : Reader) (lexemes : List Lexeme) : Except Misread Reader :=
  lexemes.foldlM (step goal) reader

/-- Reading a concatenation of token sequences is reading the first one and, unless it is refused,
going on with the second. -/
theorem advance_append (goal : Goal) (reader : Reader) (first second : List Lexeme) :
    reader.advance goal (first ++ second) =
      (reader.advance goal first).bind fun next => next.advance goal second :=
  List.foldlM_append

/-- Ends the text: nothing may be open, and a single form must have been read. -/
def finish (goal : Goal) (reader : Reader) : ScanEnd → Except Misread (List Form)
  | .stuck offset => .error (reader.misread goal offset)
  | .complete offset =>
    match reader.expects goal with
    | .formOrEnd | .finish => .ok reader.finished.reverse
    | .form | .whole _ => .error (reader.misread goal offset)

end Reader

/-- Reads the forms of a source text. -/
def readForms (goal : Goal) (source : List Char) : Except Misread (List Form) := do
  let scan := Scan.ofText source
  let reader ← Reader.initial.advance goal scan.lexemes
  reader.finish goal scan.ending

end ExactLisp
