import ExactLisp.Text.Cluster

/-!
# Typed lines

A line comes with its line end and with the backspaces that were typed on it. A backspace takes back
the cluster before it. Of a cluster only the number of its bytes is remembered, and that in a single
byte; what a reader takes for one character almost never has as many as 256 bytes, but if it does,
the whole multiples of 256 are not taken back.

Only the program as a whole makes use of this. The read-eval-print loop takes its lines as they are
given, from whatever line editor.
-/

namespace ExactLisp

namespace TypedLine

/-- A line while its backspaces are obeyed. -/
structure Draft where
  /-- The characters kept, last one first. -/
  kept : List Char
  /-- The numbers of bytes of the clusters that a backspace can take back, last one first. -/
  lengths : List UInt8

/-- Takes back the last cluster. -/
def Draft.takeBack (draft : Draft) : Draft :=
  match draft.lengths with
  | [] => draft
  | length :: lengths => ⟨dropBytes length.toNat draft.kept, lengths⟩

/-- Adds a cluster at the end, or obeys it if it is a backspace. -/
def Draft.add (draft : Draft) (cluster : List Char) : Draft :=
  if cluster = ['\x08'] then draft.takeBack
  else ⟨cluster.reverse ++ draft.kept, (byteCount cluster).toUInt8 :: draft.lengths⟩

/-- Obeys the backspaces of a line. -/
def obeyBackspaces (line : List Char) : List Char :=
  if line.contains '\x08' then ((clusters line).foldl Draft.add ⟨[], []⟩).kept.reverse else line

/-- A line without its line end, a line feed or a carriage return and a line feed. -/
def withoutEnd (typed : List Char) : List Char :=
  match typed.reverse with
  | '\n' :: '\r' :: rest => rest.reverse
  | '\n' :: rest => rest.reverse
  | _ => typed

/-- What a typed line says. -/
def content (typed : List Char) : List Char :=
  obeyBackspaces (withoutEnd typed)

end TypedLine

end ExactLisp
