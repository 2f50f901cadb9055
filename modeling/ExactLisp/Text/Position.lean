/-!
# Places in a source text

Everything the reader finds is located by character offsets into the source. Lines and columns are
derived from an offset only when a place is shown, so that a form read from a longer text differs
from the same form read alone by a shift of its offsets and by nothing else.
-/

namespace ExactLisp

/-- A place as a reader sees it: lines and columns count from one. -/
structure Position where
  line : Nat
  column : Nat
  deriving DecidableEq, Repr

namespace Position

/-- The place before the first character. -/
def origin : Position := ⟨1, 1⟩

/--
The place after one more character. A line feed starts a new line; every other character, a
carriage return included, is one column wide. The pair carriage return, line feed therefore starts
exactly one new line.
-/
def advance (position : Position) (c : Char) : Position :=
  if c = '\n' then ⟨position.line + 1, 1⟩ else ⟨position.line, position.column + 1⟩

/-- The place after all characters of a text that starts at `position`. -/
def advanceOver (position : Position) (text : List Char) : Position :=
  text.foldl advance position

/-- Advancing over a concatenation is advancing over its parts in order. -/
theorem advanceOver_append (position : Position) (first second : List Char) :
    position.advanceOver (first ++ second) = (position.advanceOver first).advanceOver second :=
  List.foldl_append

/-- The place of a character offset. -/
def ofOffset (source : List Char) (offset : Nat) : Position :=
  origin.advanceOver (source.take offset)

/-- A place written as `line:column`. -/
def display (position : Position) : String :=
  toString position.line ++ ":" ++ toString position.column

end Position

/-- A stretch of the source: the offset of its first character and the offset after its last. -/
structure Extent where
  start : Nat
  stop : Nat
  deriving DecidableEq, Repr

namespace Extent

/-- The characters of a stretch. -/
def slice (source : List Char) (extent : Extent) : List Char :=
  (source.drop extent.start).take (extent.stop - extent.start)

end Extent

/-- A stretch of the source as it is shown: both ends as places, and the text between them. -/
structure Span where
  start : Position
  stop : Position
  text : String
  deriving DecidableEq, Repr

/-- Locates a stretch of the source. -/
def Extent.locate (source : List Char) (extent : Extent) : Span where
  start := Position.ofOffset source extent.start
  stop := Position.ofOffset source extent.stop
  text := String.ofList (extent.slice source)

end ExactLisp
