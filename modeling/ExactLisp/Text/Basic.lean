/-!
# Texts

What is asked of characters and texts regardless of any grammar: how many bytes they have in UTF-8,
and which characters are blank. A property of characters is given by the ranges of the code points
that have it. The blank characters are those with the Unicode property `White_Space`; they are what
is trimmed off command lines and what makes an input count as empty, and the reader's own gaps are
narrower.
-/

namespace ExactLisp

/-! ### Bytes -/

/-- The number of bytes of a text. -/
def byteCount : List Char → Nat
  | [] => 0
  | c :: rest => c.utf8Size + byteCount rest

/-- Drops characters until a number of bytes is gone. -/
def dropBytes : Nat → List Char → List Char
  | 0, text => text
  | _, [] => []
  | count, c :: rest => dropBytes (count - c.utf8Size) rest

/-! ### Ranges of code points -/

/-- A range of code points. -/
structure CodeRange where
  first : Nat
  last : Nat
  deriving DecidableEq, Repr

/-- Whether the code point of a character lies in a range, both ends included. -/
def CodeRange.contains (range : CodeRange) (c : Char) : Bool :=
  decide (range.first ≤ c.toNat) && decide (c.toNat ≤ range.last)

/-- Whether a character lies in one of some ranges. -/
def inRanges (ranges : List CodeRange) (c : Char) : Bool :=
  ranges.any (·.contains c)

/-! ### Blanks -/

/-- The ranges of the characters with the property `White_Space`, in order. -/
def blankRanges : List CodeRange :=
  [⟨0x9, 0xd⟩, ⟨0x20, 0x20⟩, ⟨0x85, 0x85⟩, ⟨0xa0, 0xa0⟩, ⟨0x1680, 0x1680⟩, ⟨0x2000, 0x200a⟩,
    ⟨0x2028, 0x2029⟩, ⟨0x202f, 0x202f⟩, ⟨0x205f, 0x205f⟩, ⟨0x3000, 0x3000⟩]

/-- Whether a character has the property `White_Space`. -/
def isBlank (c : Char) : Bool :=
  inRanges blankRanges c

/-- A text without the blanks at its start. -/
def trimStart (text : List Char) : List Char :=
  text.dropWhile isBlank

/-- The first word of a text: its characters up to the first blank, after leading blanks. -/
def firstWord (text : List Char) : List Char :=
  (trimStart text).takeWhile (!isBlank ·)

end ExactLisp
