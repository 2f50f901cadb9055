import ExactLisp.Text.Mark

/-!
# Roles in a cluster

What a reader takes for one character may be several: a letter and its accents, the consonants and
the vowels of a syllable, a flag. How characters join depends on their role, which is their value of
the Unicode property `Grapheme_Cluster_Break`, refined by the properties `Extended_Pictographic` and
`Indic_Conjunct_Break`.
-/

namespace ExactLisp

/-- The role of a character in a cluster. -/
inductive ClusterBreak where
  | carriageReturn
  | lineFeed
  | control
  | extend
  /-- The zero width joiner. -/
  | joiner
  | spacingMark
  | prepend
  /-- One of the letters that make up flags in pairs. -/
  | regionalIndicator
  /-- A leading consonant of a Hangul syllable. -/
  | leadingJamo
  /-- A vowel of a Hangul syllable. -/
  | vowelJamo
  /-- A trailing consonant of a Hangul syllable. -/
  | trailingJamo
  /-- A Hangul syllable without a trailing consonant. -/
  | openSyllable
  /-- A Hangul syllable with a trailing consonant. -/
  | closedSyllable
  | pictograph
  /-- A consonant that a linker joins to the consonant before it. -/
  | consonant
  | other
  deriving DecidableEq, Repr

/-- The ranges of the control characters apart from carriage return and line feed, in order. -/
def controlRanges : List CodeRange :=
  [⟨0x0, 0x9⟩, ⟨0xb, 0xc⟩, ⟨0xe, 0x1f⟩, ⟨0x7f, 0x9f⟩, ⟨0xad, 0xad⟩, ⟨0x61c, 0x61c⟩,
    ⟨0x180e, 0x180e⟩, ⟨0x200b, 0x200b⟩, ⟨0x200e, 0x200f⟩, ⟨0x2028, 0x202e⟩, ⟨0x2060, 0x206f⟩,
    ⟨0xfeff, 0xfeff⟩, ⟨0xfff0, 0xfffb⟩, ⟨0x13430, 0x1343f⟩, ⟨0x1bca0, 0x1bca3⟩,
    ⟨0x1d173, 0x1d17a⟩, ⟨0xe0000, 0xe001f⟩, ⟨0xe0080, 0xe00ff⟩, ⟨0xe01f0, 0xe0fff⟩]

/-- The ranges of the leading consonants of Hangul syllables, in order. -/
def leadingJamoRanges : List CodeRange :=
  [⟨0x1100, 0x115f⟩, ⟨0xa960, 0xa97c⟩]

/-- The ranges of the vowels of Hangul syllables and of those that join in the same way, in
order. -/
def vowelJamoRanges : List CodeRange :=
  [⟨0x1160, 0x11a7⟩, ⟨0xd7b0, 0xd7c6⟩, ⟨0x16d63, 0x16d63⟩, ⟨0x16d67, 0x16d6a⟩]

/-- The ranges of the trailing consonants of Hangul syllables, in order. -/
def trailingJamoRanges : List CodeRange :=
  [⟨0x11a8, 0x11ff⟩, ⟨0xd7cb, 0xd7fb⟩]

/-- The range of the Hangul syllables. -/
def syllableRange : CodeRange :=
  ⟨0xac00, 0xd7a3⟩

/-- The range of the regional indicators. -/
def regionalIndicatorRange : CodeRange :=
  ⟨0x1f1e6, 0x1f1ff⟩

/-- The ranges of the characters with the property `Extended_Pictographic`, in order. -/
def pictographRanges : List CodeRange :=
  [⟨0xa9, 0xa9⟩, ⟨0xae, 0xae⟩, ⟨0x203c, 0x203c⟩, ⟨0x2049, 0x2049⟩, ⟨0x2122, 0x2122⟩,
    ⟨0x2139, 0x2139⟩, ⟨0x2194, 0x2199⟩, ⟨0x21a9, 0x21aa⟩, ⟨0x231a, 0x231b⟩, ⟨0x2328, 0x2328⟩,
    ⟨0x2388, 0x2388⟩, ⟨0x23cf, 0x23cf⟩, ⟨0x23e9, 0x23f3⟩, ⟨0x23f8, 0x23fa⟩, ⟨0x24c2, 0x24c2⟩,
    ⟨0x25aa, 0x25ab⟩, ⟨0x25b6, 0x25b6⟩, ⟨0x25c0, 0x25c0⟩, ⟨0x25fb, 0x25fe⟩, ⟨0x2600, 0x2605⟩,
    ⟨0x2607, 0x2612⟩, ⟨0x2614, 0x2685⟩, ⟨0x2690, 0x2705⟩, ⟨0x2708, 0x2712⟩, ⟨0x2714, 0x2714⟩,
    ⟨0x2716, 0x2716⟩, ⟨0x271d, 0x271d⟩, ⟨0x2721, 0x2721⟩, ⟨0x2728, 0x2728⟩, ⟨0x2733, 0x2734⟩,
    ⟨0x2744, 0x2744⟩, ⟨0x2747, 0x2747⟩, ⟨0x274c, 0x274c⟩, ⟨0x274e, 0x274e⟩, ⟨0x2753, 0x2755⟩,
    ⟨0x2757, 0x2757⟩, ⟨0x2763, 0x2767⟩, ⟨0x2795, 0x2797⟩, ⟨0x27a1, 0x27a1⟩, ⟨0x27b0, 0x27b0⟩,
    ⟨0x27bf, 0x27bf⟩, ⟨0x2934, 0x2935⟩, ⟨0x2b05, 0x2b07⟩, ⟨0x2b1b, 0x2b1c⟩, ⟨0x2b50, 0x2b50⟩,
    ⟨0x2b55, 0x2b55⟩, ⟨0x3030, 0x3030⟩, ⟨0x303d, 0x303d⟩, ⟨0x3297, 0x3297⟩, ⟨0x3299, 0x3299⟩,
    ⟨0x1f000, 0x1f0ff⟩, ⟨0x1f10d, 0x1f10f⟩, ⟨0x1f12f, 0x1f12f⟩, ⟨0x1f16c, 0x1f171⟩,
    ⟨0x1f17e, 0x1f17f⟩, ⟨0x1f18e, 0x1f18e⟩, ⟨0x1f191, 0x1f19a⟩, ⟨0x1f1ad, 0x1f1e5⟩,
    ⟨0x1f201, 0x1f20f⟩, ⟨0x1f21a, 0x1f21a⟩, ⟨0x1f22f, 0x1f22f⟩, ⟨0x1f232, 0x1f23a⟩,
    ⟨0x1f23c, 0x1f23f⟩, ⟨0x1f249, 0x1f3fa⟩, ⟨0x1f400, 0x1f53d⟩, ⟨0x1f546, 0x1f64f⟩,
    ⟨0x1f680, 0x1f6ff⟩, ⟨0x1f774, 0x1f77f⟩, ⟨0x1f7d5, 0x1f7ff⟩, ⟨0x1f80c, 0x1f80f⟩,
    ⟨0x1f848, 0x1f84f⟩, ⟨0x1f85a, 0x1f85f⟩, ⟨0x1f888, 0x1f88f⟩, ⟨0x1f8ae, 0x1f8ff⟩,
    ⟨0x1f90c, 0x1f93a⟩, ⟨0x1f93c, 0x1f945⟩, ⟨0x1f947, 0x1faff⟩, ⟨0x1fc00, 0x1fffd⟩]

/-- The ranges of the consonants that linkers join, in order. -/
def consonantRanges : List CodeRange :=
  [⟨0x915, 0x939⟩, ⟨0x958, 0x95f⟩, ⟨0x978, 0x97f⟩, ⟨0x995, 0x9a8⟩, ⟨0x9aa, 0x9b0⟩,
    ⟨0x9b2, 0x9b2⟩, ⟨0x9b6, 0x9b9⟩, ⟨0x9dc, 0x9dd⟩, ⟨0x9df, 0x9df⟩, ⟨0x9f0, 0x9f1⟩,
    ⟨0xa95, 0xaa8⟩, ⟨0xaaa, 0xab0⟩, ⟨0xab2, 0xab3⟩, ⟨0xab5, 0xab9⟩, ⟨0xaf9, 0xaf9⟩,
    ⟨0xb15, 0xb28⟩, ⟨0xb2a, 0xb30⟩, ⟨0xb32, 0xb33⟩, ⟨0xb35, 0xb39⟩, ⟨0xb5c, 0xb5d⟩,
    ⟨0xb5f, 0xb5f⟩, ⟨0xb71, 0xb71⟩, ⟨0xc15, 0xc28⟩, ⟨0xc2a, 0xc39⟩, ⟨0xc58, 0xc5a⟩, ⟨0xd15, 0xd3a⟩]

/-- The role of a character. Of the Hangul syllables every 28th has no trailing consonant. -/
def ClusterBreak.ofChar (c : Char) : ClusterBreak :=
  if c = '\r' then .carriageReturn
  else if c = '\n' then .lineFeed
  else if c = '\u200d' then .joiner
  else if inRanges controlRanges c then .control
  else if inRanges extendRanges c then .extend
  else if inRanges spacingMarkRanges c then .spacingMark
  else if inRanges prependRanges c then .prepend
  else if regionalIndicatorRange.contains c then .regionalIndicator
  else if inRanges leadingJamoRanges c then .leadingJamo
  else if inRanges vowelJamoRanges c then .vowelJamo
  else if inRanges trailingJamoRanges c then .trailingJamo
  else if syllableRange.contains c then
    if (c.toNat - syllableRange.first) % 28 = 0 then .openSyllable else .closedSyllable
  else if inRanges pictographRanges c then .pictograph
  else if inRanges consonantRanges c then .consonant
  else .other

/-- The signs that link a consonant to the next one. -/
def linkers : List Char :=
  ['\u094d', '\u09cd', '\u0acd', '\u0b4d', '\u0c4d', '\u0d4d']

/-- Whether a character can stand between a consonant and a linker or the next consonant: linkers,
the joiner and all extending characters other than the zero width non-joiner. -/
def staysInConjunct (c : Char) : Bool :=
  c != '\u200c' && (ClusterBreak.ofChar c == .extend || ClusterBreak.ofChar c == .joiner)

end ExactLisp
