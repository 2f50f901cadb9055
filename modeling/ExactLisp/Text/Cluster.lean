import ExactLisp.Text.ClusterBreak

/-!
# Clusters

The extended grapheme clusters of a text, which are what a reader takes for its characters. A
cluster under construction is held with its last character first, because whether the next character
continues it depends on the characters before that.
-/

namespace ExactLisp

namespace ClusterBreak

/-- Whether a role never joins, except that a line feed joins the carriage return before it. -/
def isControl (role : ClusterBreak) : Bool :=
  role == .carriageReturn || role == .lineFeed || role == .control

/-- Whether two roles follow each other inside a Hangul syllable. -/
def joinsInSyllable (last next : ClusterBreak) : Bool :=
  match last with
  | .leadingJamo => next == .leadingJamo || next == .vowelJamo || next == .openSyllable
      || next == .closedSyllable
  | .vowelJamo | .openSyllable => next == .vowelJamo || next == .trailingJamo
  | .trailingJamo | .closedSyllable => next == .trailingJamo
  | _ => false

end ClusterBreak

/-- Whether a cluster ends in a consonant that a linker joins to a consonant that follows. -/
def endsLinked (cluster : List Char) : Bool :=
  (cluster.takeWhile staysInConjunct).any (linkers.contains ·) &&
    ((cluster.dropWhile staysInConjunct).head?.map ClusterBreak.ofChar) == some .consonant

/-- Whether a cluster ends in a pictograph, extended or not. -/
def endsInPictograph (cluster : List Char) : Bool :=
  ((cluster.dropWhile (ClusterBreak.ofChar · == .extend)).head?.map ClusterBreak.ofChar)
    == some .pictograph

/-- Whether a cluster ends in a regional indicator that has no partner yet. -/
def endsInHalfFlag (cluster : List Char) : Bool :=
  (cluster.takeWhile (ClusterBreak.ofChar · == .regionalIndicator)).length % 2 == 1

/-- Whether a character continues a cluster. -/
def continuesCluster (cluster : List Char) (next : Char) : Bool :=
  match cluster with
  | [] => true
  | lastChar :: earlier =>
    let last := ClusterBreak.ofChar lastChar
    let role := ClusterBreak.ofChar next
    if last.isControl || role.isControl then last == .carriageReturn && role == .lineFeed
    else if last.joinsInSyllable role then true
    else match role with
      | .extend | .joiner | .spacingMark => true
      | .consonant => last == .prepend || endsLinked cluster
      | .pictograph => last == .prepend || last == .joiner && endsInPictograph earlier
      | .regionalIndicator => last == .prepend || endsInHalfFlag cluster
      | _ => last == .prepend

/-- Adds a character to the clusters of the text before it; the last cluster is the first one. -/
def addToClusters (clusters : List (List Char)) (next : Char) : List (List Char) :=
  match clusters with
  | [] => [[next]]
  | cluster :: others =>
    if continuesCluster cluster next then (next :: cluster) :: others
    else [next] :: cluster :: others

/-- The clusters of a text, in order. -/
def clusters (text : List Char) : List (List Char) :=
  ((text.foldl addToClusters []).map List.reverse).reverse

end ExactLisp
