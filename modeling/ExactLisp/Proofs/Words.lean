import ExactLisp.Reader.Word
import Mathlib.Computability.Language

/-!
# The languages of words

Which runs of characters are numbers, booleans and `nil` is said here by languages, put together by
concatenation and choice. A run is classified as a literal exactly if it lies in the language of
that literal, and as a symbol exactly if it lies in none (`Word.ofRun_classifies`). The order in
which the classes are tried does not matter, because no run lies in two of the languages.
-/

namespace ExactLisp

namespace Word

/-- A sign or nothing. -/
def signs : Language Char := {run | run = [] ∨ run = ['+'] ∨ run = ['-']}

/-- Any number of digits. -/
def digits : Language Char := {run | ∀ c ∈ run, isDigitChar c}

/-- One digit or more. -/
def naturals : Language Char := {run | run ≠ [] ∧ run ∈ digits}

/-- An integer: possibly a sign, and digits. -/
def integers : Language Char := signs * naturals

/-- The letters before an exponent. -/
def exponentMarks : Language Char := {run | run = ['e'] ∨ run = ['E']}

/-- An exponent: a letter and an integer. -/
def exponents : Language Char := exponentMarks * integers

/-- A decimal number: an integer, and behind it a point, any number of digits and possibly an
exponent, or an exponent alone. -/
def decimals : Language Char := integers * ({['.']} * digits * (1 + exponents) + exponents)

/-- The booleans. -/
def booleans : Language Char :=
  {run | run = "#t".toList ∨ run = "#f".toList ∨ run = "true".toList ∨ run = "false".toList ∨
    run = "t".toList}

/-- The names of symbols: one word character or more, and no literal. -/
def symbols : Language Char :=
  {run | run ≠ [] ∧ (∀ c ∈ run, isWordChar c) ∧ run ∉ decimals ∧ run ∉ integers ∧
    run ∉ booleans ∧ run ≠ "nil".toList}

end Word

open Word

/-! ### Signs and digits -/

theorem not_sign_of_digit {c : Char} (isDigit : isDigitChar c) : c ≠ '+' ∧ c ≠ '-' := by
  constructor <;> rintro rfl <;> simp [isDigitChar] at isDigit

theorem splitSign_append {sign rest : List Char} (isSign : sign ∈ signs)
    (unsigned : ∀ c ∈ rest.head?, c ≠ '+' ∧ c ≠ '-') :
    splitSign (sign ++ rest) = (sign == ['-'], rest) := by
  rcases isSign with rfl | rfl | rfl
  · cases rest with
    | nil => rfl
    | cons c rest =>
        have differs := unsigned c rfl
        rw [List.nil_append, splitSign]
        · rfl
        · simp [differs.2]
        · simp [differs.1]
  · rfl
  · rfl

theorem splitSign_cases (run : List Char) :
    ∃ sign ∈ signs, run = sign ++ (splitSign run).2 ∧ (splitSign run).1 = (sign == ['-']) := by
  unfold splitSign
  split
  · exact ⟨['-'], Or.inr (Or.inr rfl), rfl, rfl⟩
  · exact ⟨['+'], Or.inr (Or.inl rfl), rfl, rfl⟩
  · exact ⟨[], Or.inl rfl, rfl, rfl⟩

theorem splitSign_append_natural {sign whole : List Char} (isSign : sign ∈ signs)
    (natural : whole ∈ naturals) (rest : List Char) :
    splitSign (sign ++ (whole ++ rest)) = (sign == ['-'], whole ++ rest) := by
  rcases natural with ⟨nonempty, allDigits⟩
  rcases List.exists_cons_of_ne_nil nonempty with ⟨c, others, rfl⟩
  apply splitSign_append isSign
  rintro _ ⟨⟩
  exact not_sign_of_digit (allDigits c List.mem_cons_self)

theorem span_append_digits {run rest : List Char} (allDigits : run ∈ digits)
    (ended : ∀ c ∈ rest.head?, isDigitChar c = false) :
    (run ++ rest).span isDigitChar = (run, rest) := by
  rw [List.span_eq_takeWhile_dropWhile, List.takeWhile_append_of_pos allDigits,
    List.dropWhile_append_of_pos allDigits]
  cases rest with
  | nil => simp
  | cons c rest =>
      have notDigit : isDigitChar c = false := ended c rfl
      simp [notDigit]

/-- Every text starts with a longest run of characters of a kind. -/
theorem exists_run_append (isKind : Char → Bool) (text : List Char) :
    ∃ run rest, text = run ++ rest ∧ (∀ c ∈ run, isKind c) ∧
      ∀ c ∈ rest.head?, isKind c = false := by
  refine ⟨text.takeWhile isKind, text.dropWhile isKind, List.takeWhile_append_dropWhile.symm,
    List.all_eq_true.mp List.all_takeWhile, ?_⟩
  intro c isHead
  have notKind := List.head?_dropWhile_not isKind text
  rw [Option.mem_def.mp isHead] at notKind
  simpa using notKind

theorem exists_digits_append (run : List Char) :
    ∃ first ∈ digits, ∃ rest, (∀ c ∈ rest.head?, isDigitChar c = false) ∧ run = first ++ rest := by
  rcases exists_run_append isDigitChar run with ⟨first, rest, isRun, areDigits, ended⟩
  exact ⟨first, areDigits, rest, ended, isRun⟩

theorem mem_decimals {run : List Char} :
    run ∈ decimals ↔ ∃ sign ∈ signs, ∃ whole ∈ naturals,
      (∃ fraction ∈ digits, ∃ tail, (tail = [] ∨ tail ∈ exponents) ∧
        run = sign ++ (whole ++ '.' :: (fraction ++ tail))) ∨
      ∃ tail ∈ exponents, run = sign ++ (whole ++ tail) := by
  simp only [decimals, integers, Language.mem_mul, Language.mem_add, Language.mem_one]
  constructor
  · rintro ⟨_, ⟨sign, isSign, whole, natural, rfl⟩, behind, isBehind, rfl⟩
    refine ⟨sign, isSign, whole, natural, ?_⟩
    rw [List.append_assoc]
    rcases isBehind with ⟨_, ⟨_, rfl, fraction, allDigits, rfl⟩, tail, isTail, rfl⟩ | isExponent
    · exact Or.inl ⟨fraction, allDigits, tail, isTail, by simp⟩
    · exact Or.inr ⟨behind, isExponent, rfl⟩
  · rintro ⟨sign, isSign, whole, natural, ⟨fraction, allDigits, tail, isTail, rfl⟩ |
      ⟨tail, isExponent, rfl⟩⟩
    · refine ⟨_, ⟨sign, isSign, whole, natural, rfl⟩, _, Or.inl ?_, List.append_assoc _ _ _⟩
      exact ⟨_, ⟨['.'], rfl, fraction, allDigits, rfl⟩, tail, isTail, rfl⟩
    · exact ⟨_, ⟨sign, isSign, whole, natural, rfl⟩, tail, Or.inr isExponent,
        List.append_assoc _ _ _⟩

/-! ### Integers -/

theorem IntegerLiteral.parse?_append {sign whole : List Char} (isSign : sign ∈ signs)
    (natural : whole ∈ naturals) : parse? (sign ++ whole) = some ⟨sign == ['-'], whole⟩ := by
  have split := splitSign_append_natural isSign natural []
  rw [List.append_nil] at split
  rcases natural with ⟨nonempty, allDigits⟩
  have isAll : whole.all isDigitChar := List.all_eq_true.mpr allDigits
  simp [parse?, split, nonempty, isAll]

theorem IntegerLiteral.of_parse? {run : List Char} {literal : IntegerLiteral}
    (parsed : parse? run = some literal) :
    ∃ sign ∈ signs, literal.digits ∈ naturals ∧ run = sign ++ literal.digits := by
  rcases splitSign_cases run with ⟨sign, isSign, runEq, _⟩
  simp only [parse?] at parsed
  split at parsed
  · cases parsed
  · rename_i proper
    cases parsed
    simp only [Bool.or_eq_true, List.isEmpty_iff, Bool.not_eq_true', not_or,
      Bool.not_eq_false, List.all_eq_true] at proper
    exact ⟨sign, isSign, proper, runEq⟩

theorem IntegerLiteral.parse?_isSome_iff {run : List Char} :
    (parse? run).isSome ↔ run ∈ integers := by
  constructor
  · intro isSome
    rcases Option.isSome_iff_exists.mp isSome with ⟨literal, parsed⟩
    rcases of_parse? parsed with ⟨sign, isSign, natural, runEq⟩
    exact Language.mem_mul.mpr ⟨sign, isSign, literal.digits, natural, runEq.symm⟩
  · intro inLanguage
    rcases Language.mem_mul.mp inLanguage with ⟨sign, isSign, whole, natural, rfl⟩
    rw [parse?_append isSign natural]
    rfl

/-! ### Decimal numbers -/

namespace DecimalLiteral

theorem exponent?_isSome_iff {tail : List Char} : (exponent? tail).isSome ↔ tail ∈ exponents := by
  rw [exponents, Language.mem_mul]
  constructor
  · intro isSome
    cases tail with
    | nil => simp [exponent?] at isSome
    | cons mark rest =>
        rw [exponent?] at isSome
        split at isSome
        · rename_i isMark
          rw [Option.isSome_map, IntegerLiteral.parse?_isSome_iff] at isSome
          exact ⟨[mark], isMark.imp (by simp) (by simp), rest, isSome, rfl⟩
        · simp at isSome
  · rintro ⟨mark, isMark, rest, isInteger, rfl⟩
    rw [← IntegerLiteral.parse?_isSome_iff] at isInteger
    rcases isMark with rfl | rfl <;> simpa [exponent?] using isInteger

theorem head_of_mem_exponents {tail : List Char} (isExponent : tail ∈ exponents) :
    ∀ c ∈ tail.head?, isDigitChar c = false ∧ c ≠ '.' := by
  rcases Language.mem_mul.mp isExponent with ⟨mark, isMark, rest, _, rfl⟩
  rcases isMark with rfl | rfl <;> simp [isDigitChar]

/-- A decimal number with a point. -/
theorem parse?_point {sign whole fraction tail : List Char} (isSign : sign ∈ signs)
    (natural : whole ∈ naturals) (allDigits : fraction ∈ digits)
    (ended : ∀ c ∈ tail.head?, isDigitChar c = false) :
    parse? (sign ++ (whole ++ '.' :: (fraction ++ tail))) =
      if tail.isEmpty then some ⟨sign == ['-'], whole, fraction, 0⟩
      else (exponent? tail).map fun exponent => ⟨sign == ['-'], whole, fraction, exponent⟩ := by
  have spanWhole : (whole ++ '.' :: (fraction ++ tail)).span isDigitChar =
      (whole, '.' :: (fraction ++ tail)) := span_append_digits natural.2 (by simp [isDigitChar])
  simp only [parse?, splitSign_append_natural isSign natural, spanWhole,
    span_append_digits allDigits ended, List.isEmpty_iff, natural.1, if_false]

/-- A decimal number without a point. -/
theorem parse?_noPoint {sign whole tail : List Char} (isSign : sign ∈ signs)
    (natural : whole ∈ naturals) (ended : ∀ c ∈ tail.head?, isDigitChar c = false ∧ c ≠ '.') :
    parse? (sign ++ (whole ++ tail)) =
      (exponent? tail).map fun exponent => ⟨sign == ['-'], whole, [], exponent⟩ := by
  have spanWhole := span_append_digits natural.2 fun c isHead => (ended c isHead).1
  simp only [parse?, splitSign_append_natural isSign natural, spanWhole, List.isEmpty_iff,
    natural.1, if_false]
  split
  · rename_i rest
    exact absurd rfl (ended '.' rfl).2
  · rfl

theorem mem_decimals_of_parse? {run : List Char} (isSome : (parse? run).isSome) :
    run ∈ decimals := by
  rcases splitSign_cases run with ⟨sign, isSign, runEq, _⟩
  rcases exists_digits_append (splitSign run).2 with ⟨whole, allDigits, behind, ended, unsignedEq⟩
  by_cases isEmpty : whole = []
  · subst isEmpty
    have spanNone := span_append_digits allDigits ended
    rw [← unsignedEq] at spanNone
    simp only [parse?, spanNone] at isSome
    exact absurd isSome (by simp)
  have natural : whole ∈ naturals := ⟨isEmpty, allDigits⟩
  rw [unsignedEq] at runEq
  subst runEq
  refine mem_decimals.mpr ⟨sign, isSign, whole, natural, ?_⟩
  by_cases isPoint : behind.head? = some '.'
  · rcases List.head?_eq_some_iff.mp isPoint with ⟨rest, rfl⟩
    rcases exists_digits_append rest with ⟨fraction, fractionDigits, tail, tailEnded, rfl⟩
    rw [parse?_point isSign natural fractionDigits tailEnded] at isSome
    refine Or.inl ⟨fraction, fractionDigits, tail, ?_, rfl⟩
    split at isSome
    · rename_i isEmpty
      exact Or.inl (List.isEmpty_iff.mp isEmpty)
    · rw [Option.isSome_map, exponent?_isSome_iff] at isSome
      exact Or.inr isSome
  · rw [parse?_noPoint isSign natural, Option.isSome_map, exponent?_isSome_iff] at isSome
    · exact Or.inr ⟨behind, isSome, rfl⟩
    · rintro c isHead
      refine ⟨ended c isHead, ?_⟩
      rintro rfl
      exact isPoint isHead

theorem parse?_isSome_iff {run : List Char} : (parse? run).isSome ↔ run ∈ decimals := by
  refine ⟨mem_decimals_of_parse?, ?_⟩
  intro inLanguage
  rcases mem_decimals.mp inLanguage with ⟨sign, isSign, whole, natural,
    ⟨fraction, allDigits, tail, isTail, rfl⟩ | ⟨tail, isExponent, rfl⟩⟩
  · have ended : ∀ c ∈ tail.head?, isDigitChar c = false := by
      rcases isTail with rfl | isExponent
      · simp
      · exact fun c isHead => (head_of_mem_exponents isExponent c isHead).1
    rw [parse?_point isSign natural allDigits ended]
    split
    · rfl
    · rename_i nonempty
      rw [Option.isSome_map, exponent?_isSome_iff]
      exact isTail.resolve_left fun isEmpty => nonempty (by simp [isEmpty])
  · rw [parse?_noPoint isSign natural (head_of_mem_exponents isExponent), Option.isSome_map,
      exponent?_isSome_iff]
    exact isExponent

/-- An integer is no decimal number: nothing stands behind its digits. -/
theorem parse?_eq_none_of_integer {run : List Char} (isInteger : run ∈ integers) :
    parse? run = none := by
  rcases Language.mem_mul.mp isInteger with ⟨sign, isSign, whole, natural, rfl⟩
  have noExponent := parse?_noPoint isSign natural (by simp : ∀ c ∈ ([] : List Char).head?, _)
  simpa [exponent?] using noExponent

theorem fitsInWord_of_le {exponent : Int} (inRange : exponent.natAbs ≤ maxExponent) :
    fitsInWord exponent := by
  simp only [maxExponent, fitsInWord, Bool.and_eq_true, decide_eq_true_eq] at inRange ⊢
  omega

theorem value_cases (literal : DecimalLiteral) :
    (∃ value, literal.value = .ok value) ∨
      maxExponent < literal.exponent.natAbs ∧ ∃ problem, literal.value = .error problem := by
  by_cases outOfRange : maxExponent < literal.exponent.natAbs
  · refine Or.inr ⟨outOfRange, ?_⟩
    rw [value, if_pos outOfRange]
    split
    · exact ⟨_, rfl⟩
    · exact ⟨_, rfl⟩
  · have fits := fitsInWord_of_le (Nat.le_of_not_lt outOfRange)
    exact Or.inl ⟨_, by rw [value, fits, if_neg outOfRange]; rfl⟩

end DecimalLiteral

/-! ### Words -/

namespace Word

theorem ofList_eq_iff {run : List Char} {name : String} :
    String.ofList run = name ↔ run = name.toList := by
  rw [← String.toList_inj, String.toList_ofList]

theorem mem_booleans_of_name {run : List Char} {value : Bool}
    (named : booleanOfName? (String.ofList run) = some value) : run ∈ booleans := by
  simp only [booleanOfName?, ofList_eq_iff] at named
  split at named
  · rename_i isTrue
    rcases isTrue with isTrue | isTrue | isTrue
    · exact Or.inl isTrue
    · exact Or.inr (Or.inr (Or.inl isTrue))
    · exact Or.inr (Or.inr (Or.inr (Or.inr isTrue)))
  · split at named
    · rename_i isFalse
      rcases isFalse with isFalse | isFalse
      · exact Or.inr (Or.inl isFalse)
      · exact Or.inr (Or.inr (Or.inr (Or.inl isFalse)))
    · cases named

/-- The classes are tried one after the other. -/
theorem ofRun_cases (run : List Char) :
    (∃ literal, DecimalLiteral.parse? run = some literal ∧ ofRun run = .decimal literal) ∨
    DecimalLiteral.parse? run = none ∧
      ((∃ literal, IntegerLiteral.parse? run = some literal ∧ ofRun run = .integer literal) ∨
      IntegerLiteral.parse? run = none ∧
        ((∃ value, booleanOfName? (String.ofList run) = some value ∧ ofRun run = .boolean value) ∨
        booleanOfName? (String.ofList run) = none ∧
          (run = "nil".toList ∧ ofRun run = .nil ∨
            run ≠ "nil".toList ∧ ofRun run = .symbol))) := by
  rw [ofRun]
  cases DecimalLiteral.parse? run with
  | some literal => exact Or.inl ⟨literal, rfl, rfl⟩
  | none =>
      refine Or.inr ⟨rfl, ?_⟩
      cases IntegerLiteral.parse? run with
      | some literal => exact Or.inl ⟨literal, rfl, rfl⟩
      | none =>
          refine Or.inr ⟨rfl, ?_⟩
          simp only
          cases booleanOfName? (String.ofList run) with
          | some value => exact Or.inl ⟨value, rfl, rfl⟩
          | none =>
              refine Or.inr ⟨rfl, ?_⟩
              simp only [ofList_eq_iff]
              by_cases isNil : run = "nil".toList
              · exact Or.inl ⟨isNil, if_pos isNil⟩
              · exact Or.inr ⟨isNil, if_neg isNil⟩

theorem ofRun_eq_decimal_iff {run : List Char} {literal : DecimalLiteral} :
    ofRun run = .decimal literal ↔ DecimalLiteral.parse? run = some literal := by
  rcases ofRun_cases run with ⟨_, parsed, isWord⟩ | ⟨refused, ⟨_, _, isWord⟩ |
    ⟨_, ⟨_, _, isWord⟩ | ⟨_, ⟨_, isWord⟩ | ⟨_, isWord⟩⟩⟩⟩ <;> simp_all

theorem ofRun_eq_integer_iff {run : List Char} {literal : IntegerLiteral} :
    ofRun run = .integer literal ↔ IntegerLiteral.parse? run = some literal := by
  rcases ofRun_cases run with ⟨_, parsed, isWord⟩ | ⟨_, ⟨_, parsed, isWord⟩ |
    ⟨refused, ⟨_, _, isWord⟩ | ⟨_, ⟨_, isWord⟩ | ⟨_, isWord⟩⟩⟩⟩
  · have notInteger : IntegerLiteral.parse? run ≠ some literal := by
      intro parsedInteger
      have isInteger := IntegerLiteral.parse?_isSome_iff.mp (Option.isSome_of_eq_some parsedInteger)
      simp [DecimalLiteral.parse?_eq_none_of_integer isInteger] at parsed
    simp [isWord, notInteger]
  all_goals simp_all

theorem exists_ofRun_eq_boolean_iff {run : List Char} :
    (∃ value, ofRun run = .boolean value) ↔ run ∈ booleans := by
  constructor
  · rintro ⟨value, isBoolean⟩
    rcases ofRun_cases run with ⟨_, _, isWord⟩ | ⟨_, ⟨_, _, isWord⟩ |
      ⟨_, ⟨_, named, isWord⟩ | ⟨_, ⟨_, isWord⟩ | ⟨_, isWord⟩⟩⟩⟩ <;> rw [isWord] at isBoolean
    case inr.inr.inl => exact mem_booleans_of_name named
    all_goals cases isBoolean
  · rintro (rfl | rfl | rfl | rfl | rfl)
    · exact ⟨true, by decide⟩
    · exact ⟨false, by decide⟩
    · exact ⟨true, by decide⟩
    · exact ⟨false, by decide⟩
    · exact ⟨true, by decide⟩

theorem ofRun_eq_nil_iff {run : List Char} : ofRun run = .nil ↔ run = "nil".toList := by
  constructor
  · intro isNil
    rcases ofRun_cases run with ⟨_, _, isWord⟩ | ⟨_, ⟨_, _, isWord⟩ |
      ⟨_, ⟨_, _, isWord⟩ | ⟨_, ⟨named, isWord⟩ | ⟨_, isWord⟩⟩⟩⟩ <;> rw [isWord] at isNil
    case inr.inr.inr.inl => exact named
    all_goals cases isNil
  · rintro rfl
    decide

/-- Five statements about a run, of which the first four hold in the languages of the literals and
the last one outside of them all. -/
structure Classifies (run : List Char) (isFloat isInteger isBoolean isNil isSymbol : Prop) :
    Prop where
  float : isFloat ↔ run ∈ decimals
  integer : isInteger ↔ run ∈ integers
  boolean : isBoolean ↔ run ∈ booleans
  nil : isNil ↔ run = "nil".toList
  symbol : isSymbol ↔ run ∉ decimals ∧ run ∉ integers ∧ run ∉ booleans ∧ run ≠ "nil".toList

/-- What a run of word characters stands for is decided by the languages of the literals. -/
theorem ofRun_classifies (run : List Char) :
    Classifies run (∃ literal, ofRun run = .decimal literal)
      (∃ literal, ofRun run = .integer literal) (∃ value, ofRun run = .boolean value)
      (ofRun run = .nil) (ofRun run = .symbol) := by
  have isDecimal : (∃ literal, ofRun run = .decimal literal) ↔ run ∈ decimals := by
    simp only [ofRun_eq_decimal_iff, ← DecimalLiteral.parse?_isSome_iff, Option.isSome_iff_exists]
  have isInteger : (∃ literal, ofRun run = .integer literal) ↔ run ∈ integers := by
    simp only [ofRun_eq_integer_iff, ← IntegerLiteral.parse?_isSome_iff, Option.isSome_iff_exists]
  have isBoolean : (∃ value, ofRun run = .boolean value) ↔ run ∈ booleans :=
    exists_ofRun_eq_boolean_iff
  have isNil : ofRun run = .nil ↔ run = "nil".toList := ofRun_eq_nil_iff
  refine ⟨isDecimal, isInteger, isBoolean, isNil, ?_⟩
  rw [← isDecimal, ← isInteger, ← isBoolean, Ne, ← isNil]
  cases ofRun run <;> simp

theorem mem_symbols_iff {run : List Char} :
    run ∈ symbols ↔ run ≠ [] ∧ (∀ c ∈ run, isWordChar c) ∧ ofRun run = .symbol := by
  rw [(ofRun_classifies run).symbol]
  rfl

end Word

end ExactLisp
