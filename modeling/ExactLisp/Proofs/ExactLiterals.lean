import ExactLisp.Proofs.Decimals
import ExactLisp.Proofs.Grammar

/-!
# Decimal literals are read exactly

`DecimalLiteral.Spelled` says how a decimal literal is written, part by part. A text that is written
so is taken apart into these parts again, and it denotes the product of its sign, its digits and a
power of ten, unless its exponent is too large.

The same value is found by positions: the letter before the exponent and the point are searched for,
and the parts are cut out between them. `DecimalLiteral.readAt?` does this and gives up at the first
position outside of the text and the first number that is no signed 64-bit integer. On literals it
never gives up.
-/

namespace ExactLisp

open Word

/-! ### Spelling -/

namespace DecimalLiteral

/-- How an exponent is written. -/
inductive SpelledExponent : Int → List Char → Prop where
  | mk {mark sign whole : List Char} (isMark : mark ∈ exponentMarks) (isSign : sign ∈ signs)
      (natural : whole ∈ naturals) :
      SpelledExponent (signed (sign == ['-']) (digitsValue whole)) (mark ++ (sign ++ whole))

/-- How the parts of a decimal literal are written. -/
inductive Spelled : DecimalLiteral → List Char → Prop where
  | point {sign whole fraction : List Char} (isSign : sign ∈ signs) (natural : whole ∈ naturals)
      (allDigits : fraction ∈ digits) :
      Spelled ⟨sign == ['-'], whole, fraction, 0⟩ (sign ++ (whole ++ '.' :: fraction))
  | pointExponent {sign whole fraction tail : List Char} {exponent : Int} (isSign : sign ∈ signs)
      (natural : whole ∈ naturals) (allDigits : fraction ∈ digits)
      (isTail : SpelledExponent exponent tail) :
      Spelled ⟨sign == ['-'], whole, fraction, exponent⟩
        (sign ++ (whole ++ '.' :: (fraction ++ tail)))
  | exponent {sign whole tail : List Char} {exponent : Int} (isSign : sign ∈ signs)
      (natural : whole ∈ naturals) (isTail : SpelledExponent exponent tail) :
      Spelled ⟨sign == ['-'], whole, [], exponent⟩ (sign ++ (whole ++ tail))

theorem mem_exponents_iff {tail : List Char} :
    tail ∈ exponents ↔ ∃ exponent, SpelledExponent exponent tail := by
  simp only [exponents, integers, Language.mem_mul]
  constructor
  · rintro ⟨mark, isMark, _, ⟨sign, isSign, whole, natural, rfl⟩, rfl⟩
    exact ⟨_, .mk isMark isSign natural⟩
  · rintro ⟨_, ⟨isMark, isSign, natural⟩⟩
    exact ⟨_, isMark, _, ⟨_, isSign, _, natural, rfl⟩, rfl⟩

theorem mem_decimals_iff {run : List Char} :
    run ∈ decimals ↔ ∃ literal : DecimalLiteral, literal.Spelled run := by
  rw [mem_decimals]
  constructor
  · rintro ⟨sign, isSign, whole, natural, ⟨fraction, allDigits, tail, rfl | isTail, rfl⟩ |
      ⟨tail, isTail, rfl⟩⟩
    · rw [List.append_nil]
      exact ⟨_, .point isSign natural allDigits⟩
    · rcases mem_exponents_iff.mp isTail with ⟨exponent, isExponent⟩
      exact ⟨_, .pointExponent isSign natural allDigits isExponent⟩
    · rcases mem_exponents_iff.mp isTail with ⟨exponent, isExponent⟩
      exact ⟨_, .exponent isSign natural isExponent⟩
  · rintro ⟨_, spelled⟩
    cases spelled with
    | point isSign natural allDigits =>
        exact ⟨_, isSign, _, natural, Or.inl ⟨_, allDigits, [], Or.inl rfl, by simp⟩⟩
    | pointExponent isSign natural allDigits isTail =>
        have inLanguage := mem_exponents_iff.mpr ⟨_, isTail⟩
        exact ⟨_, isSign, _, natural, Or.inl ⟨_, allDigits, _, Or.inr inLanguage, rfl⟩⟩
    | exponent isSign natural isTail =>
        have inLanguage := mem_exponents_iff.mpr ⟨_, isTail⟩
        exact ⟨_, isSign, _, natural, Or.inr ⟨_, inLanguage, rfl⟩⟩

theorem SpelledExponent.exponent?_eq {exponent : Int} {tail : List Char}
    (isTail : SpelledExponent exponent tail) : exponent? tail = some exponent := by
  rcases isTail with ⟨isMark, isSign, natural⟩
  rcases isMark with rfl | rfl <;>
    simp [exponent?, IntegerLiteral.parse?_append isSign natural, IntegerLiteral.value]

theorem SpelledExponent.head {exponent : Int} {tail : List Char}
    (isTail : SpelledExponent exponent tail) :
    ∀ c ∈ tail.head?, isDigitChar c = false ∧ c ≠ '.' :=
  head_of_mem_exponents (mem_exponents_iff.mpr ⟨exponent, isTail⟩)

theorem Spelled.parse?_eq {literal : DecimalLiteral} {run : List Char}
    (spelled : literal.Spelled run) : parse? run = some literal := by
  cases spelled with
  | @point sign whole fraction isSign natural allDigits =>
      simpa using parse?_point isSign natural allDigits
        (by simp : ∀ c ∈ ([] : List Char).head?, isDigitChar c = false)
  | pointExponent isSign natural allDigits isTail =>
      rw [parse?_point isSign natural allDigits fun c isHead => (isTail.head c isHead).1]
      split
      · rename_i isEmpty
        have isExponent := isTail.exponent?_eq
        rw [List.isEmpty_iff.mp isEmpty] at isExponent
        cases isExponent
      · rw [isTail.exponent?_eq, Option.map_some]
  | exponent isSign natural isTail =>
      rw [parse?_noPoint isSign natural isTail.head, isTail.exponent?_eq, Option.map_some]

/-- A literal is taken apart into the parts that it is written with. -/
theorem parse?_eq_some_iff {literal : DecimalLiteral} {run : List Char} :
    parse? run = some literal ↔ literal.Spelled run := by
  constructor
  · intro parsed
    have isDecimal : run ∈ decimals := parse?_isSome_iff.mp (Option.isSome_of_eq_some parsed)
    rcases mem_decimals_iff.mp isDecimal with ⟨other, spelled⟩
    rw [spelled.parse?_eq, Option.some.injEq] at parsed
    exact parsed ▸ spelled
  · exact Spelled.parse?_eq

instance (literal : DecimalLiteral) (run : List Char) : Decidable (literal.Spelled run) :=
  decidable_of_iff (parse? run = some literal) parse?_eq_some_iff

/-- What a literal denotes, whatever its exponent. -/
def denoted (literal : DecimalLiteral) : ℚ :=
  signed literal.negative (digitsValue (literal.whole ++ literal.fraction)) *
    10 ^ (literal.exponent - literal.fraction.length)

theorem value_of_outOfRange {literal : DecimalLiteral}
    (outOfRange : maxExponent < literal.exponent.natAbs) :
    ∃ problem, literal.value = .error problem ∧
      (problem = .malformedDecimal ↔ fitsInWord literal.exponent = false) := by
  rw [value, if_pos outOfRange]
  cases fitsInWord literal.exponent with
  | false => exact ⟨.malformedDecimal, rfl, by simp⟩
  | true => exact ⟨.exponentOutOfRange, rfl, by simp⟩

end DecimalLiteral

/-! ### Positions -/

/-- The characters of a stretch, if the stretch lies in the text. -/
def Extent.slice? (source : List Char) (extent : Extent) : Option (List Char) :=
  if extent.start ≤ extent.stop ∧ extent.stop ≤ source.length then some (extent.slice source)
  else none

/-- A number, if it is a signed 64-bit integer. -/
def word? (number : Int) : Option Int :=
  if fitsInWord number then some number else none

theorem word?_of_fits {number : Int} (fits : fitsInWord number) : word? number = some number :=
  if_pos fits

/-- Cuts a text at the first character of a kind; the character itself is in neither part. Without
such a character there is no second part. -/
def cutAt? (isCut : Char → Bool) (text : List Char) : Option (List Char × Option (List Char)) :=
  match text.findIdx? isCut with
  | none => some (text, none)
  | some index => do
    let before ← Extent.slice? text ⟨0, index⟩
    let behind ← Extent.slice? text ⟨index + 1, text.length⟩
    return (before, some behind)

/-- Cuts off a sign, which is looked for at the first position. -/
def cutSign? (text : List Char) : Option (Bool × List Char) :=
  match text.head? with
  | some '-' => (Extent.slice? text ⟨1, text.length⟩).map (true, ·)
  | some '+' => (Extent.slice? text ⟨1, text.length⟩).map (false, ·)
  | _ => some (false, text)

theorem Extent.slice?_rest {text : List Char} {start : Nat} (inText : start ≤ text.length) :
    Extent.slice? text ⟨start, text.length⟩ = some (text.drop start) := by
  simp [slice?, slice, inText, List.take_of_length_le]

theorem cutAt?_append {isCut : Char → Bool} {before behind : List Char} {c : Char}
    (kept : ∀ c ∈ before, isCut c = false) (cut : isCut c) :
    cutAt? isCut (before ++ c :: behind) = some (before, some behind) := by
  have found : (before ++ c :: behind).findIdx? isCut = some before.length := by
    rw [List.findIdx?_append, List.findIdx?_eq_none_iff.mpr kept, List.findIdx?_cons, if_pos cut]
    simp
  have first : Extent.slice? (before ++ c :: behind) ⟨0, before.length⟩ = some before := by
    simp [Extent.slice?, Extent.slice]
  have second : Extent.slice? (before ++ c :: behind)
      ⟨before.length + 1, (before ++ c :: behind).length⟩ = some behind := by
    rw [Extent.slice?_rest (by simp)]
    simp [List.drop_append, List.drop_eq_nil_of_le]
  rw [cutAt?, found]
  simp only [first, second]
  rfl

theorem cutAt?_eq_self {isCut : Char → Bool} {text : List Char}
    (kept : ∀ c ∈ text, isCut c = false) : cutAt? isCut text = some (text, none) := by
  rw [cutAt?, List.findIdx?_eq_none_iff.mpr kept]

theorem cutSign?_eq (text : List Char) : cutSign? text = some (splitSign text) := by
  cases text with
  | nil => rfl
  | cons c rest =>
      have behind : Extent.slice? (c :: rest) ⟨1, (c :: rest).length⟩ = some rest :=
        Extent.slice?_rest (by simp)
      rw [cutSign?, behind]
      unfold splitSign
      split <;> simp_all

namespace DecimalLiteral

/-- The letters before an exponent. -/
def isExponentMark (c : Char) : Bool :=
  c == 'e' || c == 'E'

/-- The exponent behind its letter, if it is a signed 64-bit integer. An absent one is zero. -/
def exponentWord? : Option (List Char) → Option Int
  | none => some 0
  | some text => (IntegerLiteral.parse? text).bind fun literal => word? literal.value

/-- Reads a decimal literal by positions. There is no answer if a position lies outside of the text,
or if the power of ten is no signed 64-bit integer. -/
def readAt? (run : List Char) : Option (Except LiteralProblem Rat) := do
  let (mantissa, tail) ← cutAt? isExponentMark run
  match exponentWord? tail with
  | none => return .error .malformedDecimal
  | some exponent =>
    if maxExponent < exponent.natAbs then return .error .exponentOutOfRange
    else
      let (negative, unsigned) ← cutSign? mantissa
      let (whole, behind) ← cutAt? (· == '.') unsigned
      let fraction := behind.getD []
      match IntegerLiteral.parse? (whole ++ fraction) with
      | none => return .error .malformedDecimal
      | some digits =>
        let places ← word? fraction.length
        let power ← word? (exponent - places)
        let magnitude := digitsValue digits.digits
        return .ok (scaled (signed negative magnitude) power)

theorem noPoint_of_digits {run : List Char} (allDigits : run ∈ digits) :
    ∀ c ∈ run, (c == '.') = false := by
  intro c charMem
  rw [beq_eq_false_iff_ne]
  rintro rfl
  simpa [isDigitChar] using allDigits '.' charMem

theorem unmarked_of_digits {run : List Char} (allDigits : run ∈ digits) :
    ∀ c ∈ run, isExponentMark c = false := by
  intro c charMem
  rw [Bool.eq_false_iff]
  intro isMark
  simp only [isExponentMark, Bool.or_eq_true, beq_iff_eq] at isMark
  rcases isMark with rfl | rfl <;> simpa [isDigitChar] using allDigits _ charMem

theorem unmarked_of_integer {sign whole : List Char} (isSign : sign ∈ signs)
    (natural : whole ∈ naturals) : ∀ c ∈ sign ++ whole, isExponentMark c = false := by
  rw [List.forall_mem_append]
  refine ⟨?_, unmarked_of_digits natural.2⟩
  rcases isSign with rfl | rfl | rfl <;> simp [isExponentMark]

theorem unmarked_of_point {sign whole fraction : List Char} (isSign : sign ∈ signs)
    (natural : whole ∈ naturals) (allDigits : fraction ∈ digits) :
    ∀ c ∈ sign ++ (whole ++ '.' :: fraction), isExponentMark c = false := by
  rw [← List.append_assoc, List.forall_mem_append, List.forall_mem_cons]
  exact ⟨unmarked_of_integer isSign natural, rfl, unmarked_of_digits allDigits⟩

theorem SpelledExponent.cutAt?_eq {mantissa tail : List Char} {exponent : Int}
    (unmarked : ∀ c ∈ mantissa, isExponentMark c = false)
    (isTail : SpelledExponent exponent tail) :
    ∃ text, cutAt? isExponentMark (mantissa ++ tail) = some (mantissa, some text) ∧
      exponentWord? (some text) = word? exponent := by
  rcases isTail with @⟨mark, sign, whole, isMark, isSign, natural⟩
  refine ⟨sign ++ whole, ?_, ?_⟩
  · rcases isMark with rfl | rfl
    · exact cutAt?_append unmarked rfl
    · exact cutAt?_append unmarked rfl
  · rw [exponentWord?, IntegerLiteral.parse?_append isSign natural]
    rfl

/-- Where a literal is cut: before the exponent, behind the sign and at the point. -/
theorem Spelled.cuts {literal : DecimalLiteral} {run : List Char} (spelled : literal.Spelled run) :
    ∃ mantissa tail unsigned behind,
      cutAt? isExponentMark run = some (mantissa, tail) ∧
      exponentWord? tail = word? literal.exponent ∧
      splitSign mantissa = (literal.negative, unsigned) ∧
      cutAt? (· == '.') unsigned = some (literal.whole, behind) ∧
      behind.getD [] = literal.fraction := by
  cases spelled with
  | @point sign whole fraction isSign natural allDigits =>
      refine ⟨_, _, _, some fraction, cutAt?_eq_self (unmarked_of_point isSign natural allDigits),
        rfl, splitSign_append_natural isSign natural _, ?_, rfl⟩
      exact cutAt?_append (noPoint_of_digits natural.2) rfl
  | @pointExponent sign whole fraction tail exponent isSign natural allDigits isTail =>
      rcases isTail.cutAt?_eq (unmarked_of_point isSign natural allDigits) with
        ⟨text, isCut, isWord⟩
      simp only [List.append_assoc, List.cons_append] at isCut
      refine ⟨_, _, _, some fraction, isCut, isWord, splitSign_append_natural isSign natural _, ?_,
        rfl⟩
      exact cutAt?_append (noPoint_of_digits natural.2) rfl
  | @exponent sign whole tail exponent isSign natural isTail =>
      rcases isTail.cutAt?_eq (unmarked_of_integer isSign natural) with ⟨text, isCut, isWord⟩
      rw [List.append_assoc] at isCut
      have split := splitSign_append_natural isSign natural []
      rw [List.append_nil] at split
      refine ⟨_, _, _, none, isCut, isWord, split, ?_, rfl⟩
      exact cutAt?_eq_self (noPoint_of_digits natural.2)

theorem Spelled.digits_mem {literal : DecimalLiteral} {run : List Char}
    (spelled : literal.Spelled run) : literal.whole ++ literal.fraction ∈ naturals := by
  have appended : ∀ {whole fraction : List Char}, whole ∈ naturals → fraction ∈ digits →
      whole ++ fraction ∈ naturals := by
    intro whole fraction natural allDigits
    exact ⟨by simp [natural.1], List.forall_mem_append.mpr ⟨natural.2, allDigits⟩⟩
  cases spelled with
  | point _ natural allDigits => exact appended natural allDigits
  | pointExponent _ natural allDigits _ => exact appended natural allDigits
  | exponent _ natural _ =>
      exact appended natural fun c charMem => absurd charMem List.not_mem_nil

theorem Spelled.length_fraction {literal : DecimalLiteral} {run : List Char}
    (spelled : literal.Spelled run) : literal.fraction.length ≤ run.length := by
  cases spelled <;> simp <;> omega

/-- The length of the fraction and the power of ten are signed 64-bit integers. Only the length of
the text limits them. -/
theorem Spelled.powers_fit {literal : DecimalLiteral} {run : List Char}
    (spelled : literal.Spelled run) (inRange : literal.exponent.natAbs ≤ maxExponent)
    (inMemory : run.length + maxExponent ≤ 2 ^ 63) :
    fitsInWord literal.fraction.length ∧
      fitsInWord (literal.exponent - literal.fraction.length) := by
  have shorter := spelled.length_fraction
  simp only [maxExponent, fitsInWord, Bool.and_eq_true, decide_eq_true_eq] at *
  omega

/-- Reading by positions always comes to an end, with the value of the literal. -/
theorem Spelled.readAt?_eq {literal : DecimalLiteral} {run : List Char}
    (spelled : literal.Spelled run) (inMemory : run.length + maxExponent ≤ 2 ^ 63) :
    readAt? run = some literal.value := by
  rcases spelled.cuts with ⟨mantissa, tail, unsigned, behind, isCut, isExponent, isSplit, isPoint,
    isFraction⟩
  have parsed := IntegerLiteral.parse?_append (Or.inl rfl : [] ∈ signs) spelled.digits_mem
  rw [List.nil_append] at parsed
  simp only [readAt?, isCut, isExponent, cutSign?_eq, isSplit, isPoint, isFraction, parsed, value,
    Option.bind_eq_bind, Option.bind_some, Option.pure_def]
  cases fits : fitsInWord literal.exponent with
  | false => simp [word?, fits]
  | true =>
      by_cases outOfRange : maxExponent < literal.exponent.natAbs
      · simp [word?, fits, outOfRange]
      · rcases spelled.powers_fit (Nat.le_of_not_lt outOfRange) inMemory with ⟨places, power⟩
        rw [word?_of_fits fits]
        simp [outOfRange, word?_of_fits places, word?_of_fits power]

end DecimalLiteral

/-! ### Reading literals -/

/-- A text that is one word parses as the word does. -/
theorem parseExpression_word {run : List Char} (spelled : run ≠ [] ∧ ∀ c ∈ run, isWordChar c) :
    parseExpression (String.ofList run) =
      (Expr.ofWord ⟨0, run.length⟩ run).mapError (ParseError.ofFault run) := by
  have split : Splits 0 run [⟨.word run, ⟨0, run.length⟩⟩] := by
    simpa using Splits.token (.word spelled.1 spelled.2) (by simp) (@Splits.done (0 + run.length))
  have isRead : readForms .single run = .ok [.word ⟨0, run.length⟩ run] :=
    readForms_eq_ok_iff.mpr ⟨_, split, .singleton .word, fun _ => ⟨_, rfl⟩⟩
  rw [parseExpression, parseText, String.toList_ofList, isRead]
  simp only [Form.toCodes, Form.toCode]
  cases Expr.ofWord ⟨0, run.length⟩ run with
  | ok expr => rfl
  | error fault => rfl

theorem Expr.ofWord_decimal {run : List Char} {literal : DecimalLiteral}
    (spelled : literal.Spelled run) (extent : Extent) :
    Expr.ofWord extent run =
      (literal.value.map (Expr.literal <| .float ·)).mapError (⟨.literal ·, extent⟩) := by
  rw [ofWord, Word.ofRun_eq_decimal_iff.mpr spelled.parse?_eq]
  dsimp only
  cases literal.value with
  | ok value => rfl
  | error problem => rfl

/-- Decimal literals are read exactly. Every text of the grammar's floats consists of a sign, digits
before and behind a point and an exponent, and it is taken apart into these. If the exponent is at
most 1024 in magnitude, the literal denotes the number that its digits write, times ten to the
exponent less the number of fraction digits, and a text of this literal alone parses as that number.
If the exponent is larger, the literal is refused, as malformed exactly if the exponent is no signed
64-bit integer. Read by positions, the literal gives the same, and no position lies outside of the
text and no number outside of the signed 64-bit integers. -/
theorem decimal_literals_are_read_exactly (run : List Char) :
    (run ∈ Word.decimals ↔ ∃ literal : DecimalLiteral, literal.Spelled run) ∧
    ∀ literal : DecimalLiteral, literal.Spelled run →
      DecimalLiteral.parse? run = some literal ∧
      (literal.exponent.natAbs ≤ 1024 →
        literal.value = .ok literal.denoted ∧
        (∀ extent, Expr.ofWord extent run = .ok (.literal (.float literal.denoted))) ∧
        parseExpression (String.ofList run) = .ok (.literal (.float literal.denoted))) ∧
      (1024 < literal.exponent.natAbs →
        ∃ problem, (problem = .malformedDecimal ↔ fitsInWord literal.exponent = false) ∧
          literal.value = .error problem ∧
          (∀ extent, Expr.ofWord extent run = .error ⟨.literal problem, extent⟩) ∧
          parseExpression (String.ofList run) =
            .error (.faulty (.literal problem) (Extent.locate run ⟨0, run.length⟩))) ∧
      (run.length + 1024 ≤ 2 ^ 63 → DecimalLiteral.readAt? run = some literal.value) := by
  refine ⟨DecimalLiteral.mem_decimals_iff, ?_⟩
  intro literal spelled
  have isDecimal : run ∈ decimals := DecimalLiteral.mem_decimals_iff.mpr ⟨literal, spelled⟩
  have parses := parseExpression_word (Word.spelled_of_decimal isDecimal)
  refine ⟨spelled.parse?_eq, ?_, ?_, spelled.readAt?_eq⟩
  · intro inRange
    have isValue : literal.value = .ok literal.denoted := DecimalLiteral.value_eq_zpow inRange
    have isWord : ∀ extent, Expr.ofWord extent run = .ok (.literal (.float literal.denoted)) := by
      intro extent
      rw [Expr.ofWord_decimal spelled, isValue]
      rfl
    exact ⟨isValue, isWord, by rw [parses, isWord]; rfl⟩
  · intro outOfRange
    rcases DecimalLiteral.value_of_outOfRange outOfRange with ⟨problem, isProblem, malformed⟩
    have isWord : ∀ extent, Expr.ofWord extent run = .error ⟨.literal problem, extent⟩ := by
      intro extent
      rw [Expr.ofWord_decimal spelled, isProblem]
      rfl
    exact ⟨problem, malformed, isProblem, isWord, by rw [parses, isWord]; rfl⟩

/-- A small exponent next to one of twenty digits. -/
theorem twenty_digit_exponent_is_refused :
    parseExpression "-1.25e-3" = .ok (.literal (.float (-1 / 800))) ∧
    DecimalLiteral.readAt? "-1.25e-3".toList = some (.ok (-1 / 800)) ∧
    ∃ span, parseExpression "1E+99999999999999999999" =
      .error (.faulty (.literal .malformedDecimal) span) := by
  have small : (⟨true, ['1'], ['2', '5'], -3⟩ : DecimalLiteral).Spelled "-1.25e-3".toList := by
    decide
  have large : (⟨false, ['1'], [], 99999999999999999999⟩ : DecimalLiteral).Spelled
      "1E+99999999999999999999".toList := by
    decide
  rcases (decimal_literals_are_read_exactly _).2 _ small with ⟨-, exact, -, inText⟩
  rcases (decimal_literals_are_read_exactly _).2 _ large with ⟨-, -, refused, -⟩
  rcases exact (by decide) with ⟨isValue, -, parses⟩
  rcases refused (by decide) with ⟨problem, malformed, -, -, fails⟩
  have denoted_eq : (⟨true, ['1'], ['2', '5'], -3⟩ : DecimalLiteral).denoted = -1 / 800 := by
    have digits_eq : digitsValue ['1', '2', '5'] = 125 := rfl
    norm_num [DecimalLiteral.denoted, signed, digits_eq]
  rw [String.ofList_toList, denoted_eq] at parses
  rw [String.ofList_toList, malformed.mpr rfl] at fails
  rw [isValue, denoted_eq] at inText
  exact ⟨parses, inText (by decide), _, fails⟩

end ExactLisp
