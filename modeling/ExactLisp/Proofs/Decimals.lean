import ExactLisp.Proofs.Words
import Mathlib.Algebra.Order.Floor.Semifield
import Mathlib.Data.Rat.Floor
import Mathlib.Tactic.FieldSimp
import Mathlib.Tactic.Linarith

/-!
# The text of numbers

The text of an integer is an integer literal that denotes it. The text of a rational number is a
decimal literal that denotes the number rounded to the fraction digits that are shown
(`DecimalLiteral.parse?_decimalText`), so it denotes the number itself if its expansion ends within
them.
-/

namespace ExactLisp

open Word

/-! ### Rounding -/

/-- A rational number rounded to a number of fraction digits. Halves are rounded away from zero. -/
def roundHalfAway (digits : Nat) (value : Rat) : Rat :=
  let magnitude : Rat := ⌊|value| * 10 ^ digits + 1 / 2⌋₊ / 10 ^ digits
  if value < 0 then -magnitude else magnitude

/-- The expansion of a rational number ends within a number of fraction digits. -/
def Terminates (digits : Nat) (value : Rat) : Prop :=
  ∃ units : Int, value * 10 ^ digits = units

/-- What rounding has to give: a nearest number of so many fraction digits, and of two nearest ones
the one that is farther from zero. -/
structure RoundsTo (digits : Nat) (value result : Rat) : Prop where
  terminates : Terminates digits result
  nearest : |value - result| * 10 ^ digits ≤ 1 / 2
  away : |value - result| * 10 ^ digits = 1 / 2 → |value| < |result|

theorem roundHalfAway_eq_of_terminates {digits : Nat} {value : Rat}
    (terminates : Terminates digits value) : roundHalfAway digits value = value := by
  rcases terminates with ⟨units, isUnits⟩
  have scale_pos : (0 : ℚ) < 10 ^ digits := by positivity
  have magnitude_eq : |value| * 10 ^ digits = units.natAbs := by
    rw [← abs_of_pos scale_pos, ← abs_mul, isUnits, ← Int.cast_abs, Nat.cast_natAbs]
  have rounds : ⌊|value| * 10 ^ digits + 1 / 2⌋₊ = units.natAbs := by
    rw [magnitude_eq, Nat.floor_eq_iff (by positivity)]
    constructor <;> linarith
  rw [roundHalfAway, rounds, ← magnitude_eq, mul_div_cancel_right₀ _ scale_pos.ne']
  split_ifs with isNegative
  · rw [abs_of_neg isNegative, neg_neg]
  · rw [abs_of_nonneg (not_lt.mp isNegative)]

theorem roundedUnits_eq_floor (value : Rat) (digits : Nat) :
    roundedUnits value digits = ⌊|value| * 10 ^ digits + 1 / 2⌋₊ := by
  have den_pos : (0 : ℚ) < value.den := by exact_mod_cast value.den_pos
  have abs_eq : |value| = value.num.natAbs / value.den := by
    rw [Nat.cast_natAbs, Int.cast_abs, ← abs_of_pos den_pos, ← abs_div, Rat.num_div_den]
  have quotient_eq : |value| * 10 ^ digits + 1 / 2 =
      ((2 * (value.num.natAbs * 10 ^ digits) + value.den : Nat) : ℚ) /
        ((2 * value.den : Nat) : ℚ) := by
    rw [abs_eq]
    push_cast
    field_simp
  rw [quotient_eq, Nat.floor_div_eq_div]
  rfl

theorem abs_roundHalfAway (digits : Nat) (value : Rat) :
    |roundHalfAway digits value| = roundedUnits value digits / 10 ^ digits := by
  have nonneg : (0 : ℚ) ≤ roundedUnits value digits / 10 ^ digits := by positivity
  rw [roundHalfAway, ← roundedUnits_eq_floor]
  split_ifs
  · rw [abs_neg, abs_of_nonneg nonneg]
  · rw [abs_of_nonneg nonneg]

theorem roundsTo_roundHalfAway (digits : Nat) (value : Rat) :
    RoundsTo digits value (roundHalfAway digits value) := by
  have scale_pos : (0 : ℚ) < 10 ^ digits := by positivity
  have below : (roundedUnits value digits : ℚ) ≤ |value| * 10 ^ digits + 1 / 2 := by
    rw [roundedUnits_eq_floor]
    exact Nat.floor_le (by positivity)
  have above : |value| * 10 ^ digits + 1 / 2 < roundedUnits value digits + 1 := by
    rw [roundedUnits_eq_floor]
    exact Nat.lt_floor_add_one _
  -- the number and its rounded value are on the same side of zero
  have distance : |value - roundHalfAway digits value| * 10 ^ digits =
      |(|value| * 10 ^ digits - roundedUnits value digits)| := by
    have scaled : ∀ number : ℚ, |number| * 10 ^ digits = |number * 10 ^ digits| := by
      intro number
      rw [abs_mul, abs_of_pos scale_pos]
    rw [scaled, roundHalfAway, ← roundedUnits_eq_floor]
    split_ifs with isNegative
    · rw [abs_of_neg isNegative, ← abs_neg]
      congr 1
      field_simp
      ring
    · rw [abs_of_nonneg (not_lt.mp isNegative)]
      congr 1
      field_simp
  refine ⟨?_, ?_, ?_⟩
  · rw [roundHalfAway, ← roundedUnits_eq_floor]
    split_ifs
    · exact ⟨-roundedUnits value digits, by field_simp; simp⟩
    · exact ⟨roundedUnits value digits, by field_simp; simp⟩
  · rw [distance, abs_le]
    constructor <;> linarith
  · intro isHalf
    rw [abs_roundHalfAway, lt_div_iff₀ scale_pos]
    rw [distance] at isHalf
    rcases eq_or_eq_neg_of_abs_eq isHalf with isAbove | isBelow <;> linarith

theorem roundHalfAway_neg_iff {digits : Nat} {value : Rat} :
    roundHalfAway digits value < 0 ↔ value < 0 ∧ roundedUnits value digits ≠ 0 := by
  have nonneg : (0 : ℚ) ≤ roundedUnits value digits / 10 ^ digits := by positivity
  rw [roundHalfAway, ← roundedUnits_eq_floor]
  split_ifs with isNegative
  · simp [isNegative, Nat.pos_iff_ne_zero]
  · simp [isNegative, nonneg]

/-- A number is shown as its rounded value is. -/
theorem decimalText_roundHalfAway (digits : Nat) (value : Rat) :
    decimalText (roundHalfAway digits value) digits = decimalText value digits := by
  have units_eq : roundedUnits (roundHalfAway digits value) digits = roundedUnits value digits := by
    rw [roundedUnits_eq_floor, abs_roundHalfAway, div_mul_cancel₀ _ (by positivity),
      Nat.floor_eq_iff (by positivity)]
    constructor <;> linarith
  simp only [decimalText, units_eq, roundHalfAway_neg_iff, and_assoc, and_self]

/-! ### Digits -/

theorem isDigitChar_of_isDigit {c : Char} (isDigit : c.isDigit) : isDigitChar c := by
  simpa [Char.isDigit, isDigitChar, Char.le_def] using isDigit

theorem naturalDigits_mem (n : Nat) : naturalDigits n ∈ naturals := by
  refine ⟨Nat.toDigits_ne_nil, ?_⟩
  intro c isDigit
  exact isDigitChar_of_isDigit (Nat.isDigit_of_mem_toDigits (by omega) (by omega) isDigit)

theorem digitsValue_naturalDigits (n : Nat) : digitsValue (naturalDigits n) = n :=
  Nat.ofDigitChars_toDigits (by omega) (by omega)

theorem digitsValue_append (first second : List Char) :
    digitsValue (first ++ second) =
      digitsValue first * 10 ^ second.length + digitsValue second := by
  rw [digitsValue, Nat.ofDigitChars_append, Nat.ofDigitChars_eq_ofDigitChars_zero, mul_comm]
  rfl

theorem digitsValue_zeros (count : Nat) : digitsValue (List.replicate count '0') = 0 := by
  induction count with
  | zero => rfl
  | succ count ih => rw [List.replicate_succ', digitsValue_append, ih]; rfl

theorem fixedDigits_append (width n : Nat) (rest : List Char) :
    fixedDigits width n rest = fixedDigits width n [] ++ rest := by
  induction width generalizing n rest with
  | zero => rfl
  | succ width ih => rw [fixedDigits, ih, fixedDigits, ih _ [_], List.append_assoc]; rfl

theorem fixedDigits_mem (width n : Nat) : fixedDigits width n [] ∈ digits := by
  induction width generalizing n with
  | zero => exact fun c charMem => absurd charMem List.not_mem_nil
  | succ width ih =>
      rw [fixedDigits, fixedDigits_append]
      have isDigit : isDigitChar (Nat.digitChar (n % 10)) := by
        apply isDigitChar_of_isDigit
        rw [Nat.isDigit_digitChar, decide_eq_true_eq]
        exact Nat.mod_lt n (by omega)
      intro c charMem
      rcases List.mem_append.mp charMem with earlier | last
      · exact ih _ c earlier
      · rw [List.mem_singleton.mp last]
        exact isDigit

theorem length_fixedDigits (width n : Nat) : (fixedDigits width n []).length = width := by
  induction width generalizing n with
  | zero => rfl
  | succ width ih => rw [fixedDigits, fixedDigits_append, List.length_append, ih]; rfl

theorem digitsValue_fixedDigits (width n : Nat) :
    digitsValue (fixedDigits width n []) = n % 10 ^ width := by
  induction width generalizing n with
  | zero => simp [fixedDigits, digitsValue, Nat.mod_one]
  | succ width ih =>
      have lastDigit : digitsValue [Nat.digitChar (n % 10)] = n % 10 := by
        have isDigit : naturalDigits (n % 10) = [Nat.digitChar (n % 10)] :=
          Nat.toDigits_of_lt_base (Nat.mod_lt n (by omega))
        rw [← isDigit, digitsValue_naturalDigits]
      rw [fixedDigits, fixedDigits_append, digitsValue_append, ih, lastDigit, List.length_singleton,
        pow_one, pow_succ' 10 width, Nat.mod_mul]
      omega

/-- Trimming drops zeros, all of them or all behind the last other digit; one is put back if nothing
is left. -/
theorem trimFraction_cases (fraction : List Char) :
    ∃ kept count, fraction = kept ++ List.replicate count '0' ∧
      (kept ≠ [] ∧ trimFraction fraction = kept ∨ kept = [] ∧ trimFraction fraction = ['0']) := by
  have allZeros : fraction.reverse.takeWhile (· == '0') =
      List.replicate (fraction.reverse.takeWhile (· == '0')).length '0' := by
    rw [List.eq_replicate_iff]
    refine ⟨rfl, ?_⟩
    intro c charMem
    exact eq_of_beq (List.all_eq_true.mp List.all_takeWhile c charMem)
  refine ⟨(fraction.reverse.dropWhile (· == '0')).reverse,
    (fraction.reverse.takeWhile (· == '0')).length, ?_, ?_⟩
  · rw [← List.reverse_replicate, ← allZeros, ← List.reverse_append,
      List.takeWhile_append_dropWhile, List.reverse_reverse]
  · rw [trimFraction]
    split
    · rename_i isEmpty
      exact Or.inr ⟨isEmpty, rfl⟩
    · rename_i nonempty
      exact Or.inl ⟨nonempty, rfl⟩

theorem trimFraction_mem {fraction : List Char} (allDigits : fraction ∈ digits) :
    trimFraction fraction ∈ digits := by
  rcases trimFraction_cases fraction with ⟨kept, count, rfl, ⟨_, trimmed⟩ | ⟨_, trimmed⟩⟩
  · rw [trimmed]
    exact fun c charMem => allDigits c (List.mem_append_left _ charMem)
  · rw [trimmed]
    intro c charMem
    rw [List.mem_singleton.mp charMem]
    rfl

/-- Behind a point, trimming changes no value. -/
theorem digitsValue_trimFraction (whole fraction : List Char) :
    digitsValue (whole ++ trimFraction fraction) * 10 ^ fraction.length =
      digitsValue (whole ++ fraction) * 10 ^ (trimFraction fraction).length := by
  rcases trimFraction_cases fraction with ⟨kept, count, rfl, ⟨_, trimmed⟩ | ⟨rfl, trimmed⟩⟩
  · rw [trimmed, ← List.append_assoc, digitsValue_append (whole ++ kept), digitsValue_zeros,
      List.length_append, List.length_replicate, pow_add]
    ring
  · rw [trimmed, digitsValue_append, List.nil_append, digitsValue_append, digitsValue_zeros,
      List.length_replicate, List.length_singleton]
    have zero : digitsValue ['0'] = 0 := rfl
    rw [zero]
    ring

/-! ### Literals -/

theorem isWordChar_of_digit {c : Char} (isDigit : isDigitChar c) : isWordChar c := by
  simp [isWordChar, isDigit]

theorem isWordChar_of_sign {sign : List Char} (isSign : sign ∈ signs) :
    ∀ c ∈ sign, isWordChar c := by
  rcases isSign with rfl | rfl | rfl <;> exact List.all_eq_true.mp rfl

theorem Word.spelled_of_integer {run : List Char} (isInteger : run ∈ integers) :
    run ≠ [] ∧ ∀ c ∈ run, isWordChar c := by
  rcases Language.mem_mul.mp isInteger with ⟨sign, isSign, whole, ⟨nonempty, allDigits⟩, rfl⟩
  refine ⟨by simp [nonempty], ?_⟩
  rw [List.forall_mem_append]
  exact ⟨isWordChar_of_sign isSign, fun c charMem => isWordChar_of_digit (allDigits c charMem)⟩

theorem Word.spelled_of_exponent {tail : List Char} (isExponent : tail ∈ exponents) :
    ∀ c ∈ tail, isWordChar c := by
  rcases Language.mem_mul.mp isExponent with ⟨mark, isMark, rest, isInteger, rfl⟩
  rw [List.forall_mem_append]
  refine ⟨?_, (spelled_of_integer isInteger).2⟩
  rcases isMark with rfl | rfl <;> exact List.all_eq_true.mp rfl

theorem Word.spelled_of_decimal {run : List Char} (isDecimal : run ∈ decimals) :
    run ≠ [] ∧ ∀ c ∈ run, isWordChar c := by
  rcases mem_decimals.mp isDecimal with ⟨sign, isSign, whole, ⟨nonempty, allDigits⟩,
    ⟨fraction, fractionDigits, tail, isTail, rfl⟩ | ⟨tail, isExponent, rfl⟩⟩
  · refine ⟨by simp [nonempty], ?_⟩
    have tailChars : ∀ c ∈ tail, isWordChar c := by
      rcases isTail with rfl | isExponent
      · simp
      · exact spelled_of_exponent isExponent
    simp only [List.forall_mem_append, List.forall_mem_cons]
    exact ⟨isWordChar_of_sign isSign, fun c charMem => isWordChar_of_digit (allDigits c charMem),
      rfl, fun c charMem => isWordChar_of_digit (fractionDigits c charMem), tailChars⟩
  · refine ⟨by simp [nonempty], ?_⟩
    simp only [List.forall_mem_append]
    exact ⟨isWordChar_of_sign isSign, fun c charMem => isWordChar_of_digit (allDigits c charMem),
      spelled_of_exponent isExponent⟩

/-- The text of an integer is a literal that denotes it. -/
theorem IntegerLiteral.parse?_integerText (n : Int) :
    ∃ literal, parse? (integerText n) = some literal ∧ literal.value = n := by
  rw [integerText]
  split
  · have parsed := parse?_append (Or.inr (Or.inr rfl) : ['-'] ∈ signs) (naturalDigits_mem n.natAbs)
    refine ⟨_, parsed, ?_⟩
    simp only [value, digitsValue_naturalDigits, signed, BEq.rfl, if_true]
    omega
  · have parsed := parse?_append (Or.inl rfl : [] ∈ signs) (naturalDigits_mem n.natAbs)
    refine ⟨_, parsed, ?_⟩
    simp only [value, digitsValue_naturalDigits, signed]
    exact Int.natAbs_of_nonneg (by omega)

namespace DecimalLiteral

theorem scaled_eq_zpow (significand exponent : Int) :
    scaled significand exponent = significand * (10 : ℚ) ^ exponent := by
  rw [scaled]
  split
  · rename_i nonneg
    rcases Int.eq_ofNat_of_zero_le nonneg with ⟨places, rfl⟩
    simp [powerOfTen]
  · rename_i negative
    rcases Int.eq_ofNat_of_zero_le (by omega : 0 ≤ -exponent) with ⟨places, isPlaces⟩
    rw [← neg_neg exponent, isPlaces, Rat.mkRat_eq_div, zpow_neg, div_eq_mul_inv]
    simp [powerOfTen]

theorem signed_mul (negative : Bool) (magnitude : Nat) (factor : ℚ) :
    (signed negative magnitude : ℚ) * factor =
      if negative then -(magnitude * factor) else magnitude * factor := by
  cases negative <;> simp [signed]

/-- What a literal denotes whose exponent is in range. -/
theorem value_eq_zpow {literal : DecimalLiteral}
    (inRange : literal.exponent.natAbs ≤ maxExponent) :
    literal.value = .ok (signed literal.negative (digitsValue (literal.whole ++ literal.fraction)) *
      (10 : ℚ) ^ (literal.exponent - literal.fraction.length)) := by
  rw [value, fitsInWord_of_le inRange, if_neg (by simp), if_neg (by omega), scaled_eq_zpow]

theorem decimalText_eq (value : Rat) (digits : Nat) :
    ∃ sign ∈ signs, (sign == ['-']) = decide (value < 0 ∧ roundedUnits value digits ≠ 0) ∧
      decimalText value digits = sign ++ (naturalDigits (roundedUnits value digits / 10 ^ digits) ++
        '.' :: (trimFraction (fixedDigits digits (roundedUnits value digits % 10 ^ digits) []) ++
          [])) := by
  simp only [decimalText, List.append_assoc, List.append_nil]
  split
  · rename_i isNegative
    exact ⟨['-'], Or.inr (Or.inr rfl), by simp [isNegative], rfl⟩
  · rename_i isNegative
    exact ⟨[], Or.inl rfl, by simp [isNegative], rfl⟩

/-- The digits that are shown for a number of units of the last place amount to these units. -/
theorem shownDigits_eq (units places : Nat) :
    (digitsValue (naturalDigits (units / 10 ^ places) ++
        trimFraction (fixedDigits places (units % 10 ^ places) [])) : ℚ) *
      10 ^ (0 - ((trimFraction (fixedDigits places (units % 10 ^ places) [])).length : Int)) =
      units / 10 ^ places := by
  have whole_eq : digitsValue (naturalDigits (units / 10 ^ places) ++
      fixedDigits places (units % 10 ^ places) []) = units := by
    rw [digitsValue_append, digitsValue_naturalDigits, length_fixedDigits, digitsValue_fixedDigits,
      Nat.mod_mod, Nat.div_add_mod']
  have trimmed := digitsValue_trimFraction (naturalDigits (units / 10 ^ places))
    (fixedDigits places (units % 10 ^ places) [])
  rw [whole_eq, length_fixedDigits] at trimmed
  rw [zero_sub, zpow_neg, zpow_natCast, ← div_eq_mul_inv, div_eq_div_iff (by positivity)
    (by positivity)]
  exact_mod_cast trimmed

/-- The text of a rational number is a literal that denotes the rounded number. -/
theorem parse?_decimalText (value : Rat) (digits : Nat) :
    ∃ literal, parse? (decimalText value digits) = some literal ∧
      literal.value = .ok (roundHalfAway digits value) := by
  rcases decimalText_eq value digits with ⟨sign, isSign, isNegative, text_eq⟩
  have allDigits := trimFraction_mem
    (fixedDigits_mem digits (roundedUnits value digits % 10 ^ digits))
  rw [text_eq, parse?_point isSign (naturalDigits_mem _) allDigits (by simp)]
  refine ⟨_, rfl, ?_⟩
  rw [value_eq_zpow (by simp), isNegative, signed_mul, shownDigits_eq, roundHalfAway,
    ← roundedUnits_eq_floor]
  -- the sign is left out where the rounded number is zero
  by_cases isZero : roundedUnits value digits = 0
  · simp [isZero]
  · simp [isZero]

end DecimalLiteral

end ExactLisp
