import ExactLisp.Proofs.Decimals

/-!
# The text of a rational number is canonical

A rational number is shown as a decimal number in canonical form: no digit in it could be left out.
The number that it denotes is the nearest one with so many fraction digits, of two nearest ones the
one farther from zero; there is exactly one such number (`roundsTo_iff`).
-/

namespace ExactLisp

open Word

/-! ### Rounding is determined -/

/-- Rounding to fraction digits is rounding to an integer, in units of the last digit. -/
theorem RoundsTo.exists_units {digits : Nat} {value result : Rat}
    (rounds : RoundsTo digits value result) :
    ∃ units : ℤ, result * 10 ^ digits = units ∧ |value * 10 ^ digits - units| ≤ 1 / 2 ∧
      (|value * 10 ^ digits - units| = 1 / 2 → |value * 10 ^ digits| < |(units : ℚ)|) := by
  rcases rounds with ⟨⟨units, isUnits⟩, nearest, away⟩
  have scale_pos : (0 : ℚ) < 10 ^ digits := by positivity
  have scaled : ∀ number : ℚ, |number * 10 ^ digits| = |number| * 10 ^ digits := by
    intro number
    rw [abs_mul, abs_of_pos scale_pos]
  have distance : |value * 10 ^ digits - units| = |value - result| * 10 ^ digits := by
    rw [← scaled, sub_mul, isUnits]
  refine ⟨units, isUnits, distance ▸ nearest, ?_⟩
  intro isHalf
  rw [← isUnits, scaled, scaled]
  exact mul_lt_mul_of_pos_right (away (distance ▸ isHalf)) scale_pos

/-- Of two neighbours that are equally near, one is not farther from zero. -/
theorem not_both_away {value : ℚ} {units : ℤ} (isHalf : value = units + 1 / 2)
    (below : |value| < |(units : ℚ)|) (above : |value| < |(units : ℚ) + 1|) : False := by
  rcases le_or_gt 0 units with nonneg | negative
  · have unitsNonneg : (0 : ℚ) ≤ units := by exact_mod_cast nonneg
    rw [abs_of_nonneg unitsNonneg] at below
    linarith [le_abs_self value]
  · have unitsNegative : (units : ℚ) + 1 ≤ 0 := by exact_mod_cast negative
    rw [abs_of_nonpos unitsNegative] at above
    linarith [neg_abs_le value]

theorem RoundsTo.not_lt {digits : Nat} {value first second : Rat}
    (isFirst : RoundsTo digits value first) (isSecond : RoundsTo digits value second) :
    ¬ first < second := by
  intro isLess
  rcases isFirst.exists_units with ⟨lower, isLower, lowerNear, lowerAway⟩
  rcases isSecond.exists_units with ⟨upper, isUpper, upperNear, upperAway⟩
  have lower_lt : (lower : ℚ) < upper := by
    rw [← isLower, ← isUpper]
    exact mul_lt_mul_of_pos_right isLess (by positivity)
  have lowerBound := (abs_le.mp lowerNear).2
  have upperBound := (abs_le.mp upperNear).1
  -- two results lie one unit apart, with the number half way between them
  have next : upper = lower + 1 := by
    have above : lower < upper := by exact_mod_cast lower_lt
    have below : upper < lower + 2 := by
      have : (upper : ℚ) < lower + 2 := by linarith
      exact_mod_cast this
    omega
  rw [next] at upperBound upperAway
  push_cast at upperBound upperAway
  have isHalf : value * 10 ^ digits = lower + 1 / 2 := by linarith
  apply not_both_away isHalf
  · apply lowerAway
    rw [isHalf, add_sub_cancel_left]
    norm_num
  · apply upperAway
    rw [isHalf, add_sub_add_left_eq_sub]
    norm_num

/-- A number is rounded in exactly one way. -/
theorem roundsTo_iff {digits : Nat} {value result : Rat} :
    RoundsTo digits value result ↔ result = roundHalfAway digits value := by
  have rounds := roundsTo_roundHalfAway digits value
  constructor
  · intro isResult
    exact le_antisymm (not_lt.mp (rounds.not_lt isResult)) (not_lt.mp (isResult.not_lt rounds))
  · rintro rfl
    exact rounds

/-! ### Digits that cannot be left out -/

theorem naturalDigits_head (n : Nat) :
    naturalDigits n = ['0'] ∨ (naturalDigits n).head? ≠ some '0' := by
  induction n using Nat.strongRecOn with
  | ind n ih =>
      rw [naturalDigits]
      by_cases isDigit : n < 10
      · rw [Nat.toDigits_of_lt_base isDigit]
        by_cases isZero : n = 0
        · rw [isZero]
          exact Or.inl rfl
        · simp [isZero]
      · -- the first digit is that of the number without its last digit, which is not zero
        have digits_eq : Nat.toDigits 10 n =
            naturalDigits (n / 10) ++ [Nat.digitChar (n % 10)] :=
          Nat.toDigits_of_base_le (by omega) (by omega)
        right
        rw [digits_eq, List.head?_append_of_ne_nil _ (naturalDigits_mem _).1]
        rcases ih (n / 10) (by omega) with isZero | notZero
        · have isNone := digitsValue_naturalDigits (n / 10)
          rw [isZero] at isNone
          have quotient_pos : 0 < n / 10 := by omega
          exact absurd isNone.symm (Nat.ne_of_gt quotient_pos)
        · exact notZero

theorem trimFraction_last (fraction : List Char) :
    trimFraction fraction = ['0'] ∨ (trimFraction fraction).getLast? ≠ some '0' := by
  rw [trimFraction]
  split
  · exact Or.inl rfl
  · right
    rw [List.getLast?_reverse]
    intro isZero
    have notZero := List.head?_dropWhile_not (· == '0') fraction.reverse
    rw [isZero] at notZero
    simp at notZero

theorem length_trimFraction (fraction : List Char) :
    (trimFraction fraction).length ≤ max 1 fraction.length := by
  rcases trimFraction_cases fraction with ⟨kept, count, isFraction, ⟨_, trimmed⟩ | ⟨_, trimmed⟩⟩
  · rw [trimmed, isFraction, List.length_append]
    omega
  · rw [trimmed]
    exact Nat.le_max_left _ _

/-! ### Canonical form -/

/-- A decimal number that is written with a point, with one fraction digit or more, at most `most`
where `most` is not zero, and with no digit that could be left out. -/
structure CanonicalDecimal (most : Nat) where
  negative : Bool
  whole : List Char
  fraction : List Char
  whole_mem : whole ∈ naturals
  fraction_mem : fraction ∈ naturals
  fraction_short : fraction.length ≤ max 1 most
  noLeadingZero : whole = ['0'] ∨ whole.head? ≠ some '0'
  noTrailingZero : fraction = ['0'] ∨ fraction.getLast? ≠ some '0'

namespace CanonicalDecimal

variable {most : Nat}

/-- How a canonical decimal is written. -/
def text (decimal : CanonicalDecimal most) : List Char :=
  (if decimal.negative then ['-'] else []) ++ (decimal.whole ++ '.' :: decimal.fraction)

/-- The number that a canonical decimal denotes. -/
def denoted (decimal : CanonicalDecimal most) : ℚ :=
  signed decimal.negative (digitsValue (decimal.whole ++ decimal.fraction)) /
    10 ^ decimal.fraction.length

/-- The canonical decimal that a rational number is shown as. -/
def ofRat (value : Rat) (digits : Nat) : CanonicalDecimal digits where
  negative := decide (value < 0 ∧ roundedUnits value digits ≠ 0)
  whole := naturalDigits (roundedUnits value digits / 10 ^ digits)
  fraction := trimFraction (fixedDigits digits (roundedUnits value digits % 10 ^ digits) [])
  whole_mem := naturalDigits_mem _
  fraction_mem := by
    refine ⟨?_, trimFraction_mem (fixedDigits_mem _ _)⟩
    rcases trimFraction_cases (fixedDigits digits (roundedUnits value digits % 10 ^ digits) [])
      with ⟨kept, _, _, ⟨nonempty, trimmed⟩ | ⟨_, trimmed⟩⟩ <;> simp_all
  fraction_short := by
    have short := length_trimFraction
      (fixedDigits digits (roundedUnits value digits % 10 ^ digits) [])
    rwa [length_fixedDigits] at short
  noLeadingZero := naturalDigits_head _
  noTrailingZero := trimFraction_last _

theorem text_ofRat (value : Rat) (digits : Nat) :
    (ofRat value digits).text = decimalText value digits := by
  simp only [text, ofRat, decimalText, decide_eq_true_eq, List.append_assoc]
  rfl

/-- A canonical decimal is read as the number that it denotes. -/
theorem parse?_text (decimal : CanonicalDecimal most) :
    ∃ literal, DecimalLiteral.parse? decimal.text = some literal ∧
      literal.value = .ok decimal.denoted := by
  have isSign : (if decimal.negative then ['-'] else []) ∈ signs := by
    split
    · exact Or.inr (Or.inr rfl)
    · exact Or.inl rfl
  have parsed := DecimalLiteral.parse?_point isSign decimal.whole_mem decimal.fraction_mem.2
    (by simp : ∀ c ∈ ([] : List Char).head?, isDigitChar c = false)
  rw [List.append_nil] at parsed
  refine ⟨_, parsed, ?_⟩
  rw [DecimalLiteral.value_eq_zpow (by simp), denoted, div_eq_mul_inv, zero_sub, zpow_neg,
    zpow_natCast]
  cases decimal.negative <;> rfl

end CanonicalDecimal

/-- The text of a rational number is canonical and denotes the number correctly rounded. A sign is
written exactly if the number is negative and is not rounded to zero. The text is a decimal literal
that is read back as the rounded number, which is the number itself if it has no more fraction
digits than were asked for. -/
theorem decimal_text_is_canonical_and_rounded (value : Rat) (digits : Nat) :
    ∃ decimal : CanonicalDecimal digits, decimalText value digits = decimal.text ∧
      (∀ result, RoundsTo digits value result ↔ result = decimal.denoted) ∧
      (Terminates digits value → decimal.denoted = value) ∧
      (decimal.negative ↔ value < 0 ∧ decimal.denoted ≠ 0) ∧
      decimalText value digits ∈ decimals ∧
      ∃ literal, DecimalLiteral.parse? (decimalText value digits) = some literal ∧
        literal.value = .ok decimal.denoted := by
  have text_eq := CanonicalDecimal.text_ofRat value digits
  rcases (CanonicalDecimal.ofRat value digits).parse?_text with ⟨literal, parsed, isValue⟩
  rw [text_eq] at parsed
  have denoted_eq : (CanonicalDecimal.ofRat value digits).denoted = roundHalfAway digits value := by
    rcases DecimalLiteral.parse?_decimalText value digits with ⟨other, alsoParsed, alsoValue⟩
    rw [← Option.some.inj (parsed.symm.trans alsoParsed), isValue] at alsoValue
    exact Except.ok.inj alsoValue
  refine ⟨CanonicalDecimal.ofRat value digits, text_eq.symm, ?_, ?_, ?_, ?_, literal, parsed,
    isValue⟩
  · intro result
    rw [denoted_eq, roundsTo_iff]
  · intro terminates
    rw [denoted_eq, roundHalfAway_eq_of_terminates terminates]
  · have abs_eq := abs_roundHalfAway digits value
    have notZero : roundHalfAway digits value ≠ 0 ↔ roundedUnits value digits ≠ 0 := by
      rw [← abs_ne_zero, abs_eq]
      simp
    rw [denoted_eq, notZero]
    exact decide_eq_true_iff
  · exact DecimalLiteral.parse?_isSome_iff.mp (Option.isSome_of_eq_some parsed)

theorem three_digits_show_seven_eighths :
    Terminates 3 (-7 / 8) ∧ decimalText (-7 / 8) 3 = "-0.875".toList ∧
    ∃ literal, DecimalLiteral.parse? "-0.875".toList = some literal ∧
      literal.value = .ok (-7 / 8) := by
  have terminates : Terminates 3 (-7 / 8) := ⟨-875, by norm_num⟩
  have text_eq : decimalText (-7 / 8) 3 = "-0.875".toList := by decide +kernel
  rcases decimal_text_is_canonical_and_rounded (-7 / 8) 3 with
    ⟨decimal, _, _, same, _, _, literal, parsed, isValue⟩
  rw [text_eq] at parsed
  rw [same terminates] at isValue
  exact ⟨terminates, text_eq, literal, parsed, isValue⟩

-- a carry into the whole part, and a negative number that is rounded to zero
example : decimalText (999 / 1000) 2 = "1.0".toList ∧ decimalText (-1 / 1000) 2 = "0.0".toList := by
  decide +kernel

end ExactLisp
