import ExactLisp.Proofs.Decimals
import ExactLisp.Proofs.ParsingExpressions
import ExactLisp.Proofs.Spelling

/-!
# The rules of the grammar

The grammar of the language as parsing expressions (`Peg.grammar`). Its choices are ordered, numbers
and names are told apart by what must not follow them, and gaps are skipped wherever a rule does not
forbid it.

This module compares what the grammar says below the level of forms with tokens: gaps
(`exists_gap`), string literals (`Takes.stringInner`) and words. A word is taken by the rule of the
literal whose language it lies in (`Recognizes.takes_word`, `Recognizes.refuses_word`), and as a
form by the rule of its class, whatever the order in which the rules are tried (`Peg.matches_word`).
-/

namespace ExactLisp

theorem Reaches.blanks {stop offset : Nat} {blanks text left : List Char} {lexemes : List Lexeme}
    (areBlank : ∀ c ∈ blanks, isBlankChar c)
    (reaches : Reaches stop left (offset + blanks.length) text lexemes) :
    Reaches stop left offset (blanks ++ text) lexemes := by
  induction blanks generalizing offset with
  | nil => exact reaches
  | cons c blanks ih =>
      rw [List.forall_mem_cons] at areBlank
      rw [List.length_cons, Nat.add_comm blanks.length, ← Nat.add_assoc] at reaches
      exact .blank areBlank.1 (ih areBlank.2 reaches)

namespace Peg

/-- The names of the rules. -/
inductive RuleName where
  | whitespace
  | comment
  | program
  | single
  | endOfInput
  | expression
  | quoted
  | unquoted
  | list
  | literal
  | sign
  | exponent
  | float
  | integer
  | string
  | stringInner
  | boolean
  | nil
  | symbolChar
  | symbol
  deriving DecidableEq, Repr

section Rules

open Pattern

/-- A line end. -/
def newline : Pattern RuleName :=
  literal "\n" <|> literal "\r\n" <|> literal "\r"

/-- A decimal digit. -/
def digit : Pattern RuleName :=
  range '0' '9'

/-- A letter or a digit. -/
def alphanumeric : Pattern RuleName :=
  range 'a' 'z' <|> range 'A' 'Z' <|> range '0' '9'

/-- One character of a string literal, or a backslash and what it escapes. -/
def textPart : Pattern RuleName :=
  notAhead (literal "\"" <|> literal "\\") * any <|> literal "\\" * any

/-- The rules of the grammar. -/
def rules : RuleName → Definition RuleName
  | .whitespace => ⟨.silent, literal " " <|> literal "\t" <|> literal "\r" <|> literal "\n"⟩
  | .comment => ⟨.silent, literal ";" * many (notAhead newline * any)⟩
  | .program => ⟨.normal, start * many (rule .expression) * rule .endOfInput⟩
  | .single => ⟨.normal, start * rule .expression * rule .endOfInput⟩
  | .endOfInput => ⟨.normal, finish⟩
  | .expression => ⟨.silent,
      rule .quoted <|> rule .unquoted <|> rule .list <|> rule .literal <|> rule .symbol⟩
  | .quoted => ⟨.normal, literal "'" * rule .expression⟩
  | .unquoted => ⟨.normal, literal "," * rule .expression⟩
  | .list => ⟨.normal, literal "(" * many (rule .expression) * literal ")"⟩
  | .literal => ⟨.silent,
      rule .float <|> rule .integer <|> rule .string <|> rule .boolean <|> rule .nil⟩
  | .sign => ⟨.silent, literal "+" <|> literal "-"⟩
  | .exponent => ⟨.silent,
      (literal "e" <|> literal "E") * optional (rule .sign) * oneOrMore digit⟩
  | .float => ⟨.atomic,
      optional (rule .sign) * oneOrMore digit *
        (literal "." * many digit * optional (rule .exponent) <|> rule .exponent) *
        notAhead (rule .symbolChar)⟩
  | .integer => ⟨.atomic,
      optional (rule .sign) * oneOrMore digit * notAhead (rule .symbolChar)⟩
  | .string => ⟨.compound, literal "\"" * rule .stringInner * literal "\""⟩
  | .stringInner => ⟨.atomic, many textPart⟩
  | .boolean => ⟨.atomic,
      (literal "#t" <|> literal "#f" <|> literal "true" <|> literal "false" <|> literal "t") *
        notAhead (rule .symbolChar)⟩
  | .nil => ⟨.atomic, literal "nil" * notAhead (rule .symbolChar)⟩
  | .symbolChar => ⟨.silent,
      alphanumeric
        <|> literal "!" <|> literal "$" <|> literal "%" <|> literal "&" <|> literal "*"
        <|> literal "/" <|> literal ":" <|> literal "<" <|> literal "=" <|> literal ">"
        <|> literal "?" <|> literal "^" <|> literal "_" <|> literal "~" <|> literal "+"
        <|> literal "-" <|> literal "." <|> literal "#"⟩
  | .symbol => ⟨.atomic, oneOrMore (rule .symbolChar)⟩

end Rules

/-- The grammar. -/
def grammar : Grammar RuleName where
  definition := rules
  blank := .whitespace
  comment := .comment

/-! ### Characters -/

variable {mode : Mode}

theorem isClass_blank : IsClass grammar mode (.rule .whitespace) isBlankChar := by
  have isClass : IsClass grammar mode (rules .whitespace).body _ :=
    .orElse (isClass_literal rfl) (.orElse (isClass_literal rfl)
      (.orElse (isClass_literal rfl) (isClass_literal rfl)))
  apply IsClass.rule rfl
  refine isClass.congr fun c => ?_
  rw [Bool.eq_iff_iff]
  simp [isBlankChar, or_assoc]

theorem isClass_digit : IsClass grammar mode digit isDigitChar :=
  isClass_range '0' '9'

theorem isClass_sign : IsClass grammar mode (.rule .sign) ("+-".toList.contains ·) := by
  have isClass : IsClass grammar mode (rules .sign).body _ :=
    .orElse (isClass_literal rfl) (isClass_literal rfl)
  apply IsClass.rule rfl
  exact isClass.congr fun c => by simp

theorem isClass_symbolChar : IsClass grammar mode (.rule .symbolChar) isWordChar := by
  have isLetter : IsClass grammar mode alphanumeric _ :=
    .orElse (isClass_range 'a' 'z') (.orElse (isClass_range 'A' 'Z') (isClass_range '0' '9'))
  have isClass : IsClass grammar mode (rules .symbolChar).body _ :=
    .orElse isLetter <|
    .orElse (isClass_literal rfl) <| .orElse (isClass_literal rfl) <|
    .orElse (isClass_literal rfl) <| .orElse (isClass_literal rfl) <|
    .orElse (isClass_literal rfl) <| .orElse (isClass_literal rfl) <|
    .orElse (isClass_literal rfl) <| .orElse (isClass_literal rfl) <|
    .orElse (isClass_literal rfl) <| .orElse (isClass_literal rfl) <|
    .orElse (isClass_literal rfl) <| .orElse (isClass_literal rfl) <|
    .orElse (isClass_literal rfl) <| .orElse (isClass_literal rfl) <|
    .orElse (isClass_literal rfl) <| .orElse (isClass_literal rfl) <|
    .orElse (isClass_literal rfl) (isClass_literal rfl)
  apply IsClass.rule rfl
  refine isClass.congr fun c => ?_
  have marks : "!$%&*/:<=>?^_~+-.#".toList = "!".toList ++ ("$".toList ++ ("%".toList ++
      ("&".toList ++ ("*".toList ++ ("/".toList ++ (":".toList ++ ("<".toList ++ ("=".toList ++
      (">".toList ++ ("?".toList ++ ("^".toList ++ ("_".toList ++ ("~".toList ++ ("+".toList ++
      ("-".toList ++ (".".toList ++ "#".toList)))))))))))))))) := rfl
  simp only [isWordChar, isDigitChar, marks, List.contains_append]
  congr 1
  rw [← Bool.or_assoc, Bool.or_comm, ← Bool.or_assoc]

/-- A character of a comment is one that ends no line. -/
theorem isClass_inLine (held : mode ≠ .free) :
    IsClass grammar mode (.notAhead newline * .any) fun c => !endsLine c := by
  have isClass : IsClass grammar mode (.notAhead newline * .any) fun c => !endsLine c && true := by
    refine isClass_any.except held endsLine ?_ ?_
    · intro c rest isEnd
      simp only [endsLine, Bool.or_eq_true, beq_iff_eq] at isEnd
      rcases isEnd with rfl | rfl
      · exact ⟨['\n'], rest, rfl, .orElse_first (.literal "\n")⟩
      · have notFeed : Refuses grammar mode (.literal "\n") ('\r' :: rest) :=
          .literal '\n' rfl (by simp)
        by_cases isPair : "\r\n".toList <+: '\r' :: rest
        · rcases isPair with ⟨more, isText⟩
          rw [← isText] at notFeed ⊢
          exact ⟨_, more, rfl, .orElse_second notFeed (.orElse_first (.literal "\r\n"))⟩
        · refine ⟨['\r'], rest, rfl, .orElse_second notFeed (.orElse_second ?_ (.literal "\r"))⟩
          exact fun _ => .literal_refuses isPair
    · intro text noEnd
      have notEnd : ∀ c ∈ text.head?, c ≠ '\n' ∧ c ≠ '\r' := by
        simpa [endsLine] using noEnd
      have notReturn : ∀ c ∈ text.head?, c ≠ '\r' := fun c isHead => (notEnd c isHead).2
      refine .orElse (.literal '\n' rfl fun c isHead => (notEnd c isHead).1) ?_
      exact .orElse (.literal '\r' rfl notReturn) (.literal '\r' rfl notReturn)
  exact isClass.congr fun c => Bool.and_true _

/-! ### Gaps -/

theorem Takes.comment {body rest : List Char} (inLine : ∀ c ∈ body, endsLine c = false)
    (ended : ∀ c ∈ rest.head?, endsLine c) :
    Takes grammar .compound (.rule .comment) (';' :: body) rest := by
  have held : Mode.compound ≠ .free := by simp
  refine .rule rfl (.mul held (.literal ";") ?_)
  exact (isClass_inLine held).many held (by simpa using inLine) (by simpa using ended)

theorem Refuses.comment {text : List Char} (other : ∀ c ∈ text.head?, c ≠ ';') :
    Refuses grammar .compound (.rule .comment) text :=
  .rule (.mul_first (.literal ';' rfl other))

/-- A text without a gap at its beginning. -/
def NoGap (text : List Char) : Prop :=
  ∀ c ∈ text.head?, isBlankChar c = false ∧ c ≠ ';'

theorem Takes.noGap {text : List Char} (noGap : NoGap text) :
    Takes grammar .compound grammar.gap [] text := by
  have noComment : Refuses grammar .compound (.rule .comment) text :=
    .comment fun c isHead => (noGap c isHead).2
  refine .seq (.repeated_nil (isClass_blank.refuses text fun c isHead => (noGap c isHead).1)) ?_
  exact .repeated_nil fun offset => .seq_refuses_first (noComment offset)

/-- Comments and the blanks behind them are skipped by the grammar and by the scanner alike. -/
theorem exists_comments (text : List Char) (noBlank : ∀ c ∈ text.head?, isBlankChar c = false) :
    ∃ gap rest, text = gap ++ rest ∧ NoGap rest ∧
      Takes grammar .compound (.repeated (.seq (.rule .comment) (.repeated (.rule .whitespace))))
        gap rest ∧
      ∀ offset, Reaches (offset + gap.length) rest offset text [] := by
  induction length : text.length using Nat.strong_induction_on generalizing text with
  | _ length ih =>
      subst length
      by_cases isComment : text.head? = some ';'
      · rcases List.head?_eq_some_iff.mp isComment with ⟨behind, rfl⟩
        rcases exists_run_append (fun c => !endsLine c) behind with
          ⟨body, between, rfl, inLine, ended⟩
        rcases exists_run_append isBlankChar between with ⟨blanks, more, rfl, areBlank, noneLeft⟩
        have inLine : ∀ c ∈ body, endsLine c = false := by simpa using inLine
        have ended : ∀ c ∈ (blanks ++ more).head?, endsLine c := by simpa using ended
        rcases ih more.length (by simp; omega) more noneLeft rfl with
          ⟨gap, rest, rfl, noGap, takes, reaches⟩
        refine ⟨';' :: body ++ blanks ++ gap, rest, by simp, noGap, ?_, ?_⟩
        · refine .repeated (.seq ?_ (isClass_blank.repeated areBlank noneLeft)) takes
          exact .comment inLine ended
        · intro offset
          have reached := reaches (offset + 1 + body.length + blanks.length)
          refine .comment inLine ended (.blanks areBlank ?_)
          convert reached using 1
          simp only [List.length_append, List.length_cons]
          omega
      · refine ⟨[], text, rfl, ?_, .repeated_nil ?_, fun offset => .here⟩
        · intro c isHead
          refine ⟨noBlank c isHead, ?_⟩
          rintro rfl
          exact isComment isHead
        · refine fun offset => .seq_refuses_first (Refuses.comment ?_ offset)
          rintro c isHead rfl
          exact isComment isHead

/-- What the grammar skips between two parts is a gap of the scanner, and no gap is left. -/
theorem exists_gap (text : List Char) :
    ∃ gap rest, text = gap ++ rest ∧ NoGap rest ∧ Takes grammar .compound grammar.gap gap rest ∧
      ∀ offset, Reaches (offset + gap.length) rest offset text [] := by
  rcases exists_run_append isBlankChar text with ⟨blanks, more, rfl, areBlank, noneLeft⟩
  rcases exists_comments more noneLeft with ⟨gap, rest, rfl, noGap, takes, reaches⟩
  refine ⟨blanks ++ gap, rest, by simp, noGap, ?_, ?_⟩
  · exact .seq (isClass_blank.repeated areBlank noneLeft) takes
  · intro offset
    have reached := reaches (offset + blanks.length)
    rw [Nat.add_assoc, ← List.length_append] at reached
    exact .blanks areBlank reached

/-! ### String literals -/

/-- Where a string literal can not go on: at its end, or where the text ends too early. -/
def EndsText (rest : List Char) : Prop :=
  rest = [] ∨ rest.head? = some '"' ∨ rest = ['\\']

theorem exists_textBody (text : List Char) :
    ∃ raw rest, text = raw ++ rest ∧ TextBody raw ∧ EndsText rest := by
  match text with
  | [] => exact ⟨[], [], rfl, .nil, Or.inl rfl⟩
  | c :: behind =>
      by_cases isMark : c = '"'
      · exact ⟨[], c :: behind, rfl, .nil, Or.inr (Or.inl (by rw [isMark]; rfl))⟩
      by_cases isEscape : c = '\\'
      · subst isEscape
        match behind with
        | [] => exact ⟨[], _, rfl, .nil, Or.inr (Or.inr rfl)⟩
        | next :: behind =>
            rcases exists_textBody behind with ⟨raw, rest, rfl, body, ended⟩
            exact ⟨'\\' :: next :: raw, rest, rfl, .escape body, ended⟩
      · rcases exists_textBody behind with ⟨raw, rest, rfl, body, ended⟩
        exact ⟨c :: raw, rest, rfl, .plain isMark isEscape body, ended⟩

section Held

variable (held : mode ≠ .free)

include held

theorem isClass_plain : IsClass grammar mode
    (.notAhead (.literal "\"" <|> .literal "\\") * .any) fun c => c != '"' && c != '\\' := by
  have isSpecial : IsClass grammar mode (.literal "\"" <|> .literal "\\") _ :=
    .orElse (isClass_literal rfl) (isClass_literal rfl)
  have isClass := isClass_any.except held _
    (fun c rest isOther => ⟨[c], rest, rfl, isSpecial.takes c rest isOther⟩) isSpecial.refuses
  refine isClass.congr fun c => ?_
  rw [Bool.eq_iff_iff]
  simp

theorem Takes.textPart_plain {c : Char} (notMark : c ≠ '"') (notEscape : c ≠ '\\')
    (rest : List Char) : Takes grammar mode textPart [c] rest := by
  refine .orElse_first ((isClass_plain held).takes c rest ?_)
  simp [notMark, notEscape]

theorem Takes.textPart_escape (c : Char) (rest : List Char) :
    Takes grammar mode textPart ['\\', c] rest := by
  refine .orElse_second ((isClass_plain held).refuses _ (by simp)) ?_
  exact .mul held (.literal "\\") (isClass_any.takes c rest rfl)

theorem Refuses.textPart {rest : List Char} (ended : EndsText rest) :
    Refuses grammar mode textPart rest := by
  refine .orElse ((isClass_plain held).refuses _ ?_) ?_
  · rcases ended with rfl | isMark | rfl <;> simp_all
  · rcases ended with rfl | isMark | rfl
    · exact .mul_first (.literal '\\' rfl (by simp))
    · exact .mul_first (.literal '\\' rfl (by simp [isMark]))
    · exact .mul_second held (.literal "\\") (isClass_any.refuses _ (by simp))

theorem Takes.textParts {raw rest : List Char} (body : TextBody raw) (ended : EndsText rest) :
    Takes grammar mode (.repeated (.seq .gap textPart)) raw rest := by
  induction body with
  | nil =>
      refine .repeated_nil fun offset => ?_
      exact .seq_refuses_second (.gap_held held) (Refuses.textPart held ended offset)
  | @plain c raw notMark notEscape _ ih =>
      have takes := Takes.textPart_plain held notMark notEscape (raw ++ rest)
      exact .repeated (.seq (.gap held) takes) ih
  | @escape c raw _ ih =>
      exact .repeated (.seq (.gap held) (.textPart_escape held c (raw ++ rest))) ih

/-- What may stand between quotation marks is taken up to where it can not go on. -/
theorem Takes.stringInner {raw rest : List Char} (body : TextBody raw) (ended : EndsText rest) :
    Takes grammar mode textPart.many raw rest := by
  cases body with
  | nil =>
      refine .optional_nil fun offset => ?_
      exact .seq_refuses_first (Refuses.textPart held ended offset)
  | @plain c raw notMark notEscape body =>
      have takes := Takes.textPart_plain held notMark notEscape (raw ++ rest)
      exact .optional (.seq takes (.textParts held body ended))
  | @escape c raw body =>
      exact .optional (.seq (.textPart_escape held c (raw ++ rest)) (.textParts held body ended))

end Held

/-! ### Words -/

open Word

theorem held_atomic : Mode.atomic ≠ .free := by simp

/-- A pattern takes the words of a language where they end, and nothing else. -/
structure Recognizes (core : Pattern RuleName) (language : Language Char) : Prop where
  within : Within grammar .atomic core language
  chars : ∀ run ∈ language, ∀ c ∈ run, isWordChar c
  takes : ∀ run ∈ language, ∀ rest : List Char, (∀ c ∈ rest.head?, isWordChar c = false) →
    Takes grammar .atomic core run rest

section Words

variable {core : Pattern RuleName} {language : Language Char} {run rest : List Char}

theorem Recognizes.takes_word (recognizes : Recognizes core language) (inLanguage : run ∈ language)
    (ended : ∀ c ∈ rest.head?, isWordChar c = false) :
    Takes grammar .atomic (core * .notAhead (.rule .symbolChar)) run rest := by
  have stops : Takes grammar .atomic (.notAhead (.rule .symbolChar)) [] rest :=
    .notAhead (isClass_symbolChar.refuses rest ended)
  rw [← List.append_nil run]
  exact .mul held_atomic (recognizes.takes run inLanguage rest ended) stops

/-- Two words that end in the same text are the same. -/
theorem eq_of_maximal {other more : List Char} (same : run ++ rest = other ++ more)
    (chars : ∀ c ∈ run, isWordChar c) (ended : ∀ c ∈ rest.head?, isWordChar c = false)
    (otherChars : ∀ c ∈ other, isWordChar c) (otherEnded : ∀ c ∈ more.head?, isWordChar c = false) :
    run = other := by
  have longest : ∀ run rest : List Char, (∀ c ∈ run, isWordChar c) →
      (∀ c ∈ rest.head?, isWordChar c = false) → (run ++ rest).takeWhile isWordChar = run := by
    intro run rest chars ended
    rw [List.takeWhile_append_of_pos chars]
    cases rest with
    | nil => simp
    | cons c rest => simp [ended c rfl]
  rw [← longest run rest chars ended, same, longest other more otherChars otherEnded]

theorem Recognizes.refuses_word (recognizes : Recognizes core language)
    (chars : ∀ c ∈ run, isWordChar c) (ended : ∀ c ∈ rest.head?, isWordChar c = false)
    (notInLanguage : run ∉ language) :
    Refuses grammar .atomic (core * .notAhead (.rule .symbolChar)) (run ++ rest) := by
  rcases recognizes.within (run ++ rest) with refuses | ⟨taken, inLanguage, more, isText, takes⟩
  · exact .mul_first refuses
  · rw [isText]
    refine .mul_second held_atomic takes ?_
    by_cases goesOn : ∃ c ∈ more.head?, isWordChar c
    · rcases goesOn with ⟨c, isHead, isWord⟩
      rcases List.head?_eq_some_iff.mp isHead with ⟨behind, rfl⟩
      exact .notAhead (isClass_symbolChar.takes c behind isWord)
    · -- the whole word was taken
      have moreEnded : ∀ c ∈ more.head?, isWordChar c = false := by
        simpa using goesOn
      rw [eq_of_maximal isText chars ended (recognizes.chars taken inLanguage) moreEnded]
        at notInLanguage
      exact absurd inLanguage notInLanguage

theorem not_digit_of_not_word (ended : ∀ c ∈ rest.head?, isWordChar c = false) :
    ∀ c ∈ rest.head?, isDigitChar c = false := by
  intro c isHead
  by_contra isDigit
  rw [Bool.not_eq_false] at isDigit
  exact absurd (isWordChar_of_digit isDigit) (by simp [ended c isHead])

/-! #### Numbers -/

theorem within_sign : Within grammar .atomic (.optional (.rule .sign)) signs := by
  refine (isClass_sign.within.optional).mono ?_
  rintro run (isEmpty | ⟨c, isSign, rfl⟩)
  · exact Or.inl isEmpty
  · have isSign : c = '+' ∨ c = '-' := by simpa using isSign
    rcases isSign with rfl | rfl
    · exact Or.inr (Or.inl rfl)
    · exact Or.inr (Or.inr rfl)

theorem within_integer : Within grammar .atomic
    (.optional (.rule .sign) * .oneOrMore digit) integers :=
  within_sign.mul held_atomic (isClass_digit.within_oneOrMore held_atomic)

theorem takes_sign (isSign : run ∈ signs) (unsigned : ∀ c ∈ rest.head?, c ≠ '+' ∧ c ≠ '-') :
    Takes grammar .atomic (.optional (.rule .sign)) run rest := by
  rcases isSign with rfl | rfl | rfl
  · refine .optional_nil (isClass_sign.refuses rest fun c isHead => ?_)
    simpa using unsigned c isHead
  · exact .optional (isClass_sign.takes '+' rest rfl)
  · exact .optional (isClass_sign.takes '-' rest rfl)

theorem takes_integer (isInteger : run ∈ integers)
    (ended : ∀ c ∈ rest.head?, isDigitChar c = false) :
    Takes grammar .atomic (.optional (.rule .sign) * .oneOrMore digit) run rest := by
  rcases Language.mem_mul.mp isInteger with ⟨sign, isSign, whole, ⟨nonempty, areDigits⟩, rfl⟩
  refine .mul held_atomic (takes_sign isSign ?_)
    (isClass_digit.oneOrMore held_atomic nonempty areDigits ended)
  rcases List.exists_cons_of_ne_nil nonempty with ⟨c, others, rfl⟩
  rintro _ ⟨⟩
  exact not_sign_of_digit (areDigits c List.mem_cons_self)

theorem recognizes_integer :
    Recognizes (.optional (.rule .sign) * .oneOrMore digit) integers where
  within := within_integer
  chars := fun _ isInteger => (spelled_of_integer isInteger).2
  takes := fun _ isInteger _ ended => takes_integer isInteger (not_digit_of_not_word ended)

theorem isClass_exponentMark :
    IsClass grammar mode (.literal "e" <|> .literal "E") ("eE".toList.contains ·) := by
  have isClass : IsClass grammar mode (.literal "e" <|> .literal "E") _ :=
    .orElse (isClass_literal rfl) (isClass_literal rfl)
  exact isClass.congr fun c => by simp

theorem within_exponent : Within grammar .atomic (.rule .exponent) exponents := by
  have isMark : Within grammar .atomic (.literal "e" <|> .literal "E") exponentMarks := by
    refine isClass_exponentMark.within.mono ?_
    rintro run ⟨c, isMark, rfl⟩
    have isMark : c = 'e' ∨ c = 'E' := by simpa using isMark
    exact isMark.imp (by rintro rfl; rfl) (by rintro rfl; rfl)
  apply Within.rule rfl
  rw [exponents, integers, ← mul_assoc]
  exact (isMark.mul held_atomic within_sign).mul held_atomic
    (isClass_digit.within_oneOrMore held_atomic)

theorem refuses_exponent (other : ∀ c ∈ rest.head?, c ≠ 'e' ∧ c ≠ 'E') :
    Refuses grammar .atomic (.rule .exponent) rest := by
  refine .rule (.mul_first (.mul_first (isClass_exponentMark.refuses rest fun c isHead => ?_)))
  simpa using other c isHead

theorem takes_exponent (isExponent : run ∈ exponents)
    (ended : ∀ c ∈ rest.head?, isDigitChar c = false) :
    Takes grammar .atomic (.rule .exponent) run rest := by
  rcases Language.mem_mul.mp isExponent with ⟨mark, isMark, behind, isInteger, rfl⟩
  rcases Language.mem_mul.mp isInteger with ⟨sign, isSign, whole, ⟨nonempty, areDigits⟩, rfl⟩
  have unsigned : ∀ c ∈ (whole ++ rest).head?, c ≠ '+' ∧ c ≠ '-' := by
    rcases List.exists_cons_of_ne_nil nonempty with ⟨c, others, rfl⟩
    rintro _ ⟨⟩
    exact not_sign_of_digit (areDigits c List.mem_cons_self)
  have takesMark : ∀ more, Takes grammar .atomic (.literal "e" <|> .literal "E") mark more := by
    intro more
    rcases isMark with rfl | rfl
    · exact isClass_exponentMark.takes 'e' more rfl
    · exact isClass_exponentMark.takes 'E' more rfl
  rw [← List.append_assoc]
  refine .rule rfl (.mul held_atomic (.mul held_atomic (takesMark _) ?_) ?_)
  · exact takes_sign isSign unsigned
  exact isClass_digit.oneOrMore held_atomic nonempty areDigits ended

/-- What stands behind the whole part of a decimal number. -/
def fractionPart : Pattern RuleName :=
  .literal "." * .many digit * .optional (.rule .exponent) <|> .rule .exponent

theorem within_decimal : Within grammar .atomic
    (.optional (.rule .sign) * .oneOrMore digit * fractionPart) decimals := by
  have isPoint : Within grammar .atomic (.literal ".") {['.']} := .literal "."
  have isFraction := (isPoint.mul held_atomic (isClass_digit.within_many held_atomic)).mul
    held_atomic within_exponent.optional
  exact within_integer.mul held_atomic (isFraction.orElse within_exponent)

theorem takes_fraction {fraction tail : List Char} (areDigits : fraction ∈ digits)
    (isTail : tail = [] ∨ tail ∈ exponents) (ended : ∀ c ∈ rest.head?, isWordChar c = false) :
    Takes grammar .atomic fractionPart ('.' :: (fraction ++ tail)) rest := by
  have notDigit := not_digit_of_not_word ended
  have takesTail : Takes grammar .atomic (.optional (.rule .exponent)) tail rest := by
    rcases isTail with rfl | isExponent
    · refine .optional_nil (refuses_exponent fun c isHead => ?_)
      constructor <;> rintro rfl <;> exact nomatch ended _ isHead
    · exact .optional (takes_exponent isExponent notDigit)
  have tailEnded : ∀ c ∈ (tail ++ rest).head?, isDigitChar c = false := by
    intro c isHead
    cases tail with
    | nil => exact notDigit c isHead
    | cons mark others =>
        rcases isTail with isEmpty | isExponent
        · cases isEmpty
        · exact (DecimalLiteral.head_of_mem_exponents isExponent c isHead).1
  have takesDigits : Takes grammar .atomic (.many digit) fraction (tail ++ rest) :=
    isClass_digit.many held_atomic areDigits tailEnded
  refine .orElse_first ?_
  exact .mul held_atomic (.mul held_atomic (.literal ".") takesDigits) takesTail

theorem recognizes_decimal :
    Recognizes (.optional (.rule .sign) * .oneOrMore digit * fractionPart) decimals where
  within := within_decimal
  chars := fun _ isDecimal => (spelled_of_decimal isDecimal).2
  takes := by
    intro run isDecimal rest ended
    rcases mem_decimals.mp isDecimal with ⟨sign, isSign, whole, isWhole,
      ⟨fraction, areDigits, tail, isTail, rfl⟩ | ⟨tail, isExponent, rfl⟩⟩ <;>
      rw [← List.append_assoc] <;>
      refine .mul held_atomic (takes_integer (Language.append_mem_mul isSign isWhole) ?_) ?_
    · rintro _ ⟨⟩
      rfl
    · exact takes_fraction areDigits isTail ended
    · intro c isHead
      cases tail with
      | nil => exact not_digit_of_not_word ended c isHead
      | cons mark others => exact (DecimalLiteral.head_of_mem_exponents isExponent c isHead).1
    · refine .orElse_second (.mul_first (.mul_first (.literal '.' rfl ?_)))
        (takes_exponent isExponent (not_digit_of_not_word ended))
      intro c isHead
      cases tail with
      | nil =>
          rintro rfl
          exact nomatch ended '.' isHead
      | cons mark others => exact (DecimalLiteral.head_of_mem_exponents isExponent c isHead).2

/-! #### Names -/

theorem recognizes_nil : Recognizes (.literal "nil") {"nil".toList} where
  within := .literal "nil"
  chars := by
    rintro run rfl
    exact List.all_eq_true.mp rfl
  takes := by
    rintro run rfl rest _
    exact .literal "nil"

theorem recognizes_boolean : Recognizes
    (.literal "#t" <|> .literal "#f" <|> .literal "true" <|> .literal "false" <|> .literal "t")
    booleans where
  within := by
    have isName : Within grammar .atomic _ _ :=
      (Within.literal "#t").orElse ((Within.literal "#f").orElse ((Within.literal "true").orElse
        ((Within.literal "false").orElse (Within.literal "t"))))
    exact isName
  chars := by
    rintro run (rfl | rfl | rfl | rfl | rfl) <;> exact List.all_eq_true.mp rfl
  takes := by
    intro run isBoolean rest ended
    have differs : ∀ name : String, ∀ text, ¬name.toList <+: text →
        Refuses grammar .atomic (.literal name) text :=
      fun name text differs _ => .literal_refuses differs
    rcases isBoolean with rfl | rfl | rfl | rfl | rfl
    · exact .orElse_first (.literal "#t")
    · refine .orElse_second (differs _ _ ?_) (.orElse_first (.literal "#f"))
      simp
    · refine .orElse_second (differs _ _ ?_) (.orElse_second (differs _ _ ?_)
        (.orElse_first (.literal "true"))) <;> simp
    · refine .orElse_second (differs _ _ ?_) (.orElse_second (differs _ _ ?_)
        (.orElse_second (differs _ _ ?_) (.orElse_first (.literal "false")))) <;> simp
    · have notTrue : ¬"true".toList <+: "t".toList ++ rest := by
        rintro ⟨more, isText⟩
        have isRest : 'r' :: 'u' :: 'e' :: more = rest := by simpa using isText
        subst isRest
        exact nomatch ended 'r' rfl
      refine .orElse_second (differs _ _ ?_) (.orElse_second (differs _ _ ?_)
        (.orElse_second (differs _ _ notTrue) (.orElse_second (differs _ _ ?_) (.literal "t"))))
          <;> simp

end Words

end Peg

/-- The rule that takes a word. -/
def Word.rule : Word → Peg.RuleName
  | decimal _ => .float
  | integer _ => .integer
  | boolean _ => .boolean
  | nil => .nil
  | symbol => .symbol

namespace Peg

open Word

variable {offset middle stop : Nat} {text gap rest left run : List Char}
  {first second : Pattern RuleName} {trees more : List (Tree RuleName)}

/-! ### Where the rules begin -/

section First

variable {mode : Mode}

theorem refuses_quoted (other : ∀ c ∈ text.head?, c ≠ '\'') :
    Refuses grammar mode (.rule .quoted) text :=
  .rule (.mul_first (.literal '\'' rfl other))

theorem refuses_unquoted (other : ∀ c ∈ text.head?, c ≠ ',') :
    Refuses grammar mode (.rule .unquoted) text :=
  .rule (.mul_first (.literal ',' rfl other))

theorem refuses_list (other : ∀ c ∈ text.head?, c ≠ '(') :
    Refuses grammar mode (.rule .list) text :=
  .rule (.mul_first (.mul_first (.literal '(' rfl other)))

theorem refuses_string (other : ∀ c ∈ text.head?, c ≠ '"') :
    Refuses grammar mode (.rule .string) text :=
  .rule (.mul_first (.mul_first (.literal '"' rfl other)))

theorem refuses_symbol (other : ∀ c ∈ text.head?, isWordChar c = false) :
    Refuses grammar mode (.rule .symbol) text :=
  .rule (.mul_first (isClass_symbolChar.refuses _ other))

theorem refuses_float (chars : ∀ c ∈ run, isWordChar c)
    (ended : ∀ c ∈ rest.head?, isWordChar c = false) (other : run ∉ decimals) :
    Refuses grammar mode (.rule .float) (run ++ rest) :=
  .rule (recognizes_decimal.refuses_word chars ended other)

theorem refuses_integer (chars : ∀ c ∈ run, isWordChar c)
    (ended : ∀ c ∈ rest.head?, isWordChar c = false) (other : run ∉ integers) :
    Refuses grammar mode (.rule .integer) (run ++ rest) :=
  .rule (recognizes_integer.refuses_word chars ended other)

theorem refuses_boolean (chars : ∀ c ∈ run, isWordChar c)
    (ended : ∀ c ∈ rest.head?, isWordChar c = false) (other : run ∉ booleans) :
    Refuses grammar mode (.rule .boolean) (run ++ rest) :=
  .rule (recognizes_boolean.refuses_word chars ended other)

theorem refuses_nil (chars : ∀ c ∈ run, isWordChar c)
    (ended : ∀ c ∈ rest.head?, isWordChar c = false) (other : run ≠ "nil".toList) :
    Refuses grammar mode (.rule .nil) (run ++ rest) :=
  .rule (recognizes_nil.refuses_word chars ended other)

/-- Where no word begins, none of the rules for words takes anything. -/
theorem refuses_words (notWord : ∀ c ∈ text.head?, isWordChar c = false) :
    Refuses grammar mode (.rule .float) text ∧ Refuses grammar mode (.rule .integer) text ∧
      Refuses grammar mode (.rule .boolean) text ∧ Refuses grammar mode (.rule .nil) text := by
  have noChars : ∀ c ∈ ([] : List Char), isWordChar c := by simp
  refine ⟨refuses_float noChars notWord ?_, refuses_integer noChars notWord ?_,
    refuses_boolean noChars notWord ?_, refuses_nil noChars notWord ?_⟩
  · exact fun isDecimal => (spelled_of_decimal isDecimal).1 rfl
  · exact fun isInteger => (spelled_of_integer isInteger).1 rfl
  · rintro (isName | isName | isName | isName | isName) <;> cases isName
  · intro isName
    cases isName

theorem refuses_literal (notText : ∀ c ∈ text.head?, c ≠ '"')
    (notWord : ∀ c ∈ text.head?, isWordChar c = false) :
    Refuses grammar mode (.rule .literal) text := by
  rcases refuses_words notWord with ⟨notFloat, notInteger, notBoolean, notNil⟩
  exact .rule (.orElse notFloat (.orElse notInteger (.orElse (refuses_string notText)
    (.orElse notBoolean notNil))))

end First

/-! ### Matching where gaps are skipped -/

theorem matches_mul
    (takesFirst : Matches grammar .free first offset text (some ⟨middle, gap ++ rest, trees⟩))
    (skips : Takes grammar .compound grammar.gap gap rest)
    (takesSecond : Matches grammar .free second (middle + gap.length) rest
      (some ⟨stop, left, more⟩)) :
    Matches grammar .free (first * second) offset text (some ⟨stop, left, trees ++ more⟩) :=
  .seq takesFirst (.seq (.gap (skips middle)) takesSecond)

theorem matches_mul_refuses
    (takesFirst : Matches grammar .free first offset text (some ⟨middle, gap ++ rest, trees⟩))
    (skips : Takes grammar .compound grammar.gap gap rest)
    (refuses : Matches grammar .free second (middle + gap.length) rest none) :
    Matches grammar .free (first * second) offset text none :=
  .seq_refuses_second takesFirst (.seq_refuses_second (.gap (skips middle)) refuses)

theorem matches_silent {name : RuleName} {outcome : Option (Match RuleName)}
    (silent : (rules name).kind = .silent)
    (body : Matches grammar .free (rules name).body offset text outcome) :
    Matches grammar .free (.rule name) offset text outcome := by
  have inside : Mode.inside .free (grammar.definition name).kind = .free :=
    congrArg (Mode.inside .free) silent
  have noNode : Mode.leavesNode .free (grammar.definition name).kind = false :=
    congrArg (Mode.leavesNode .free) silent
  cases outcome with
  | none => exact .rule_refuses (by rwa [inside])
  | some taken =>
      have bodyTaken : Matches grammar (Mode.inside .free (grammar.definition name).kind)
          (grammar.definition name).body offset text (some taken) := by rwa [inside]
      have ruleTaken := Matches.rule bodyTaken
      rwa [Mode.leave, noNode, if_neg Bool.false_ne_true] at ruleTaken

/-- Where gaps are skipped, the rule of a word leaves a node without children. -/
theorem matches_atomic (name : RuleName) (isAtomic : (rules name).kind = .atomic)
    (body : Takes grammar .atomic (rules name).body run rest) (offset : Nat) :
    Matches grammar .free (.rule name) offset (run ++ rest)
      (some ⟨offset + run.length, rest, [.node name ⟨offset, offset + run.length⟩ []]⟩) := by
  have inside : Mode.inside .free (grammar.definition name).kind = .atomic :=
    congrArg (Mode.inside .free) isAtomic
  have leaves : Mode.leavesNode .free (grammar.definition name).kind = true :=
    congrArg (Mode.leavesNode .free) isAtomic
  have taken := Matches.rule (inside ▸ body offset)
  rwa [Mode.leave, leaves, if_pos rfl] at taken

/-- A word is taken by the rule of its class. -/
theorem matches_word (nonempty : run ≠ []) (chars : ∀ c ∈ run, isWordChar c)
    (ended : ∀ c ∈ rest.head?, isWordChar c = false) (offset : Nat) :
    Matches grammar .free (.rule .expression) offset (run ++ rest)
      (some ⟨offset + run.length, rest,
        [.node (Word.ofRun run).rule ⟨offset, offset + run.length⟩ []]⟩) := by
  have other : ∀ mark, isWordChar mark = false → ∀ c ∈ (run ++ rest).head?, c ≠ mark := by
    rcases List.exists_cons_of_ne_nil nonempty with ⟨c, others, rfl⟩
    rintro mark notWord _ ⟨⟩ rfl
    have isWord := chars c List.mem_cons_self
    rw [notWord] at isWord
    cases isWord
  have notText : Refuses grammar .free (.rule .string) (run ++ rest) :=
    refuses_string (other '"' rfl)
  have toLiteral : ∀ {outcome}, Matches grammar .free
      (.rule .literal <|> .rule .symbol) offset (run ++ rest) outcome →
      Matches grammar .free (.rule .expression) offset (run ++ rest) outcome := by
    intro outcome body
    exact matches_silent rfl (.choice_second (refuses_quoted (other '\'' rfl) _)
      (.choice_second (refuses_unquoted (other ',' rfl) _)
        (.choice_second (refuses_list (other '(' rfl) _) body)))
  rcases Word.ofRun_classifies run with ⟨isDecimal, isInteger, isBoolean, isNil, isSymbol⟩
  have notFloat : (∀ literal, Word.ofRun run ≠ .decimal literal) →
      Refuses grammar .free (.rule .float) (run ++ rest) := by
    intro noDecimal
    exact refuses_float chars ended fun inLanguage =>
      (isDecimal.mpr inLanguage).elim noDecimal
  have notInteger : (∀ literal, Word.ofRun run ≠ .integer literal) →
      Refuses grammar .free (.rule .integer) (run ++ rest) := by
    intro noInteger
    exact refuses_integer chars ended fun inLanguage =>
      (isInteger.mpr inLanguage).elim noInteger
  have notBoolean : (∀ value, Word.ofRun run ≠ .boolean value) →
      Refuses grammar .free (.rule .boolean) (run ++ rest) := by
    intro noBoolean
    exact refuses_boolean chars ended fun inLanguage =>
      (isBoolean.mpr inLanguage).elim noBoolean
  cases isWord : Word.ofRun run with
  | decimal literal =>
      have takes := recognizes_decimal.takes_word (isDecimal.mp ⟨literal, isWord⟩) ended
      refine toLiteral (.choice_first (matches_silent rfl (.choice_first ?_)))
      exact matches_atomic .float rfl takes offset
  | integer literal =>
      have takes := recognizes_integer.takes_word (isInteger.mp ⟨literal, isWord⟩) ended
      refine toLiteral (.choice_first (matches_silent rfl (.choice_second
        (notFloat (by simp [isWord]) _) (.choice_first ?_))))
      exact matches_atomic .integer rfl takes offset
  | boolean value =>
      have takes := recognizes_boolean.takes_word (isBoolean.mp ⟨value, isWord⟩) ended
      refine toLiteral (.choice_first (matches_silent rfl (.choice_second
        (notFloat (by simp [isWord]) _) (.choice_second (notInteger (by simp [isWord]) _)
          (.choice_second (notText _) (.choice_first ?_))))))
      exact matches_atomic .boolean rfl takes offset
  | nil =>
      have takes := recognizes_nil.takes_word (isNil.mp isWord) ended
      refine toLiteral (.choice_first (matches_silent rfl (.choice_second
        (notFloat (by simp [isWord]) _) (.choice_second (notInteger (by simp [isWord]) _)
          (.choice_second (notText _) (.choice_second (notBoolean (by simp [isWord]) _) ?_))))))
      exact matches_atomic .nil rfl takes offset
  | symbol =>
      have takes : Takes grammar .atomic (.oneOrMore (.rule .symbolChar)) run rest :=
        isClass_symbolChar.oneOrMore held_atomic nonempty chars ended
      have notNil : Refuses grammar .free (.rule .nil) (run ++ rest) :=
        refuses_nil chars ended (isSymbol.mp isWord).2.2.2
      refine toLiteral (.choice_second (matches_silent rfl (.choice_second
        (notFloat (by simp [isWord]) _) (.choice_second (notInteger (by simp [isWord]) _)
          (.choice_second (notText _) (.choice_second (notBoolean (by simp [isWord]) _)
            (notNil _)))))) ?_)
      exact matches_atomic .symbol rfl takes offset

end Peg

end ExactLisp
