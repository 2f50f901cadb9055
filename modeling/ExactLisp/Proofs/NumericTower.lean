import Mathlib.Algebra.BigOperators.Group.List.Basic
import Mathlib.Algebra.Field.Rat
import Mathlib.Algebra.Order.Ring.Rat
import Mathlib.Algebra.Order.Ring.Cast
import ExactLisp.Proofs.Builtins
import ExactLisp.Proofs.Outcome

/-!
# The numeric tower

Arithmetic is exact: every operation gives the value that the rational numbers give, and it gives an
integer exactly if all operands are integers. A number is nothing but its value and its kind
(`Number.eq_of_toRat_eq`), so these two facts say all there is to say about a result. A sum or a
product of any number of arguments is therefore the same in every order and for every nesting of
calls, although the folds that compute it change from integers to floats somewhere on the way.
-/

namespace ExactLisp

/-! ### Value and kind -/

namespace Number

/-- Whether a number is of the integer kind. -/
def isInteger : Number → Bool
  | integer _ => true
  | float _ => false

/-- A number is determined by its value and its kind. -/
theorem eq_of_toRat_eq {a b : Number} (sameValue : a.toRat = b.toRat)
    (sameKind : a.isInteger ↔ b.isInteger) : a = b := by
  cases a with
  | integer a =>
      cases b with
      | integer b => exact congrArg integer (Rat.intCast_inj.mp sameValue)
      | float b => simp [isInteger] at sameKind
  | float a =>
      cases b with
      | integer b => simp [isInteger] at sameKind
      | float b => exact congrArg float sameValue

@[simp]
theorem ofValue_toValue (operation : String) (number : Number) :
    ofValue operation number.toValue = .ok number := by
  cases number <;> rfl

@[simp]
theorem isNumber_toValue (number : Number) : number.toValue.isNumber := by
  cases number <;> rfl

theorem exists_toValue_eq {value : Value} (isNumber : value.isNumber) :
    ∃ number : Number, number.toValue = value := by
  cases value with
  | integer value => exact ⟨integer value, rfl⟩
  | float value => exact ⟨float value, rfl⟩
  | _ => simp [Value.isNumber] at isNumber

theorem ofValue_of_not_isNumber {value : Value} (other : value.isNumber = false)
    (operation : String) :
    ofValue operation value = .error (.typeMismatch operation .number value.kind) := by
  cases value with
  | integer value => simp [Value.isNumber] at other
  | float value => simp [Value.isNumber] at other
  | _ => rfl

/-- An operation on two numbers gives the value that `onValues` gives, as an integer exactly if both
operands are integers. -/
structure Exact (operation : Number → Number → Number) (onValues : ℚ → ℚ → ℚ) : Prop where
  value_eq : ∀ a b, (operation a b).toRat = onValues a.toRat b.toRat
  kind_iff : ∀ a b, (operation a b).isInteger ↔ a.isInteger ∧ b.isInteger

theorem exact_add : Exact add (· + ·) where
  value_eq a b := by cases a <;> cases b <;> simp [add, toRat]
  kind_iff a b := by cases a <;> cases b <;> simp [add, isInteger]

theorem exact_subtract : Exact subtract (· - ·) where
  value_eq a b := by cases a <;> cases b <;> simp [subtract, toRat]
  kind_iff a b := by cases a <;> cases b <;> simp [subtract, isInteger]

theorem exact_multiply : Exact multiply (· * ·) where
  value_eq a b := by cases a <;> cases b <;> simp [multiply, toRat]
  kind_iff a b := by cases a <;> cases b <;> simp [multiply, isInteger]

theorem toRat_negate (number : Number) : number.negate.toRat = -number.toRat := by
  cases number <;> simp [negate, toRat]

theorem isZero_iff {number : Number} : number.isZero ↔ number.toRat = 0 := by
  cases number <;> simp [isZero, toRat]

theorem divide_of_zero {divisor : Number} (zero : divisor.toRat = 0) (dividend : Number) :
    dividend.divide divisor = .error .divisionByZero := by
  rw [divide, if_pos (isZero_iff.mpr zero)]

theorem divide_of_ne_zero {divisor : Number} (nonzero : divisor.toRat ≠ 0) (dividend : Number) :
    dividend.divide divisor = .ok (float (dividend.toRat / divisor.toRat)) := by
  rw [divide, if_neg (mt isZero_iff.mp nonzero)]

/-- Numbers are in the order of their values, whatever their kinds. -/
theorem order_eq (a b : Number) : a.order b = compareOfLessAndEq a.toRat b.toRat := by
  cases a with
  | integer a =>
      cases b with
      | integer b => simp [order, toRat, compareOfLessAndEq, Int.cast_lt]
      | float b => rfl
  | float a => cases b <;> rfl

theorem order_iff (a b : Number) :
    (a.order b = .lt ↔ a.toRat < b.toRat) ∧ (a.order b = .eq ↔ a.toRat = b.toRat) ∧
      (a.order b = .gt ↔ b.toRat < a.toRat) := by
  rw [order_eq, compareOfLessAndEq]
  rcases lt_trichotomy a.toRat b.toRat with less | same | greater
  · simp [less, less.ne, less.le]
  · simp [same]
  · simp [greater, greater.not_gt, greater.ne']

theorem Exact.foldl {operation : Number → Number → Number} {onValues : ℚ → ℚ → ℚ}
    (exact : Exact operation onValues) (start : Number) (numbers : List Number) :
    (numbers.foldl operation start).toRat =
      (numbers.map toRat).foldl onValues start.toRat ∧
    ((numbers.foldl operation start).isInteger ↔
      start.isInteger ∧ ∀ number ∈ numbers, number.isInteger) := by
  induction numbers generalizing start with
  | nil => simp
  | cons number numbers ih =>
      rcases ih (operation start number) with ⟨value_eq, kind_iff⟩
      constructor
      · rw [List.foldl_cons, value_eq, exact.value_eq]
        rfl
      · rw [List.foldl_cons, kind_iff, exact.kind_iff, List.forall_mem_cons, and_assoc]

end Number

/-! ### Totals -/

/-- A way to total rational numbers for which neither order nor grouping matters. -/
structure IsTotal (total : List ℚ → ℚ) : Prop where
  singleton : ∀ value, total [value] = value
  perm : ∀ first second : List ℚ, first.Perm second → total first = total second
  flatten : ∀ groups : List (List ℚ), total groups.flatten = total (groups.map total)

theorem isTotal_sum : IsTotal List.sum where
  singleton _ := List.sum_singleton
  perm _ _ := List.Perm.sum_eq
  flatten _ := List.sum_flatten

theorem isTotal_prod : IsTotal List.prod where
  singleton _ := List.prod_singleton
  perm _ _ := List.Perm.prod_eq
  flatten _ := List.prod_flatten

namespace Number

/-- A number is the exact total of others, and an integer exactly if all of them are. -/
structure Totals (total : List ℚ → ℚ) (numbers : List Number) (result : Number) : Prop where
  value_eq : result.toRat = total (numbers.map Number.toRat)
  kind_iff : result.isInteger ↔ ∀ number ∈ numbers, number.isInteger

namespace Totals

variable {total : List ℚ → ℚ} {numbers others : List Number} {result : Number}

theorem unique {other : Number} (first : Totals total numbers result)
    (second : Totals total numbers other) : result = other := by
  apply eq_of_toRat_eq
  · rw [first.value_eq, second.value_eq]
  · rw [first.kind_iff, second.kind_iff]

theorem singleton (isTotal : IsTotal total) (number : Number) : Totals total [number] number where
  value_eq := (isTotal.singleton number.toRat).symm
  kind_iff := by simp

theorem perm (isTotal : IsTotal total) (permuted : numbers.Perm others)
    (totals : Totals total numbers result) : Totals total others result where
  value_eq := by
    rw [totals.value_eq]
    exact isTotal.perm _ _ (permuted.map toRat)
  kind_iff := by simp only [totals.kind_iff, permuted.mem_iff]

theorem map_toRat_eq {groups : List (List Number)}
    (each : List.Forall₂ (Totals total) groups numbers) :
    numbers.map toRat = (groups.map (List.map toRat)).map total := by
  induction each with
  | nil => rfl
  | cons first _ ih => rw [List.map_cons, first.value_eq, ih, List.map_cons, List.map_cons]

theorem forall_isInteger_iff {groups : List (List Number)}
    (each : List.Forall₂ (Totals total) groups numbers) :
    (∀ number ∈ numbers, number.isInteger) ↔ ∀ number ∈ groups.flatten, number.isInteger := by
  induction each with
  | nil => simp
  | cons first _ ih =>
      rw [List.forall_mem_cons, List.flatten_cons, List.forall_mem_append, first.kind_iff, ih]

/-- The total of the totals of groups is the total of everything in the groups. -/
theorem flatten (isTotal : IsTotal total) {groups : List (List Number)}
    (each : List.Forall₂ (Totals total) groups numbers) (totals : Totals total numbers result) :
    Totals total groups.flatten result where
  value_eq := by rw [totals.value_eq, map_toRat_eq each, List.map_flatten, isTotal.flatten]
  kind_iff := by rw [totals.kind_iff, forall_isInteger_iff each]

end Totals

end Number

/-- Numbers in nested calls of one operation: each group is the arguments of a call. -/
inductive Grouping where
  | single (number : Number)
  | group (parts : List Grouping)

namespace Grouping

@[elab_as_elim, induction_eliminator]
theorem induct {motive : Grouping → Prop} (single : ∀ number, motive (.single number))
    (group : ∀ parts, (∀ part ∈ parts, motive part) → motive (.group parts))
    (grouping : Grouping) : motive grouping :=
  @Grouping.rec motive (fun parts => ∀ part ∈ parts, motive part) single group
    (fun _ absent => absurd absent List.not_mem_nil)
    (fun _ _ ihHead ihTail => List.forall_mem_cons.mpr ⟨ihHead, ihTail⟩) grouping

mutual

/-- The numbers of a grouping, from left to right. -/
def numbers : Grouping → List Number
  | single number => [number]
  | group parts => numbersOf parts

def numbersOf : List Grouping → List Number
  | [] => []
  | part :: parts => part.numbers ++ numbersOf parts

end

mutual

/-- Carries out the calls of a grouping, innermost first. -/
def eval (call : List Value → Except Failure Value) : Grouping → Except Failure Value
  | single number => .ok number.toValue
  | group parts => do
    let values ← evalEach call parts
    call values

def evalEach (call : List Value → Except Failure Value) :
    List Grouping → Except Failure (List Value)
  | [] => .ok []
  | part :: parts => do
    let value ← part.eval call
    let values ← evalEach call parts
    return value :: values

end

theorem numbersOf_eq (parts : List Grouping) : numbersOf parts = (parts.map numbers).flatten := by
  induction parts with
  | nil => rw [numbersOf, List.map_nil, List.flatten_nil]
  | cons part parts ih => rw [numbersOf, ih, List.map_cons, List.flatten_cons]

variable {call : List Value → Except Failure Value} {total : List ℚ → ℚ}

theorem evalEach_totals {parts : List Grouping}
    (each : ∀ part ∈ parts, ∃ result : Number,
      part.eval call = .ok result.toValue ∧ Number.Totals total part.numbers result) :
    ∃ results : List Number, evalEach call parts = .ok (results.map Number.toValue) ∧
      List.Forall₂ (Number.Totals total) (parts.map numbers) results := by
  induction parts with
  | nil =>
      rw [evalEach]
      exact ⟨[], rfl, .nil⟩
  | cons part parts ih =>
      rw [List.forall_mem_cons] at each
      rcases each.1 with ⟨result, evaluated, totals⟩
      rcases ih each.2 with ⟨results, allEvaluated, allTotals⟩
      rw [evalEach, evaluated, allEvaluated]
      exact ⟨result :: results, rfl, .cons totals allTotals⟩

/-- Nested calls of an operation that totals its arguments give the total of all numbers. -/
theorem eval_totals (isTotal : IsTotal total)
    (exact : ∀ numbers : List Number, ∃ result : Number,
      call (numbers.map Number.toValue) = .ok result.toValue ∧ Number.Totals total numbers result)
    (grouping : Grouping) : ∃ result : Number,
      grouping.eval call = .ok result.toValue ∧ Number.Totals total grouping.numbers result := by
  induction grouping with
  | single number =>
      rw [eval, numbers]
      exact ⟨number, rfl, .singleton isTotal number⟩
  | group parts ih =>
      rcases evalEach_totals ih with ⟨results, evaluated, each⟩
      rcases exact results with ⟨result, called, totals⟩
      rw [eval, evaluated, numbers, numbersOf_eq]
      exact ⟨result, called, .flatten isTotal each totals⟩

end Grouping

/-! ### Builtins on numbers -/

namespace Number

theorem ofValues_map_toValue (operation : String) (numbers : List Number) :
    ofValues operation (numbers.map toValue) = .ok numbers := by
  induction numbers with
  | nil => rfl
  | cons number numbers ih =>
      rw [ofValues] at ih
      rw [ofValues, List.map_cons, List.mapM_cons, ofValue_toValue, ih]
      rfl

/-- The first value that is no number is the error. -/
theorem ofValues_of_not_isNumber (operation : String) (numbers : List Number) {other : Value}
    (notNumber : other.isNumber = false) (rest : List Value) :
    ofValues operation (numbers.map toValue ++ other :: rest) =
      .error (.typeMismatch operation .number other.kind) := by
  induction numbers with
  | nil =>
      rw [ofValues, List.map_nil, List.nil_append, List.mapM_cons,
        ofValue_of_not_isNumber notNumber]
      rfl
  | cons number numbers ih =>
      rw [ofValues] at ih
      rw [ofValues, List.map_cons, List.cons_append, List.mapM_cons, ofValue_toValue, ih]
      rfl

/-- A list of values is a list of numbers, or it has a first value that is none. -/
theorem values_cases (values : List Value) :
    (∃ numbers : List Number, values = numbers.map toValue) ∨
    ∃ (numbers : List Number) (other : Value) (rest : List Value),
      values = numbers.map toValue ++ other :: rest ∧ other.isNumber = false := by
  induction values with
  | nil => exact Or.inl ⟨[], rfl⟩
  | cons value values ih =>
      by_cases isNumber : value.isNumber
      · rcases exists_toValue_eq isNumber with ⟨number, rfl⟩
        rcases ih with ⟨numbers, rfl⟩ | ⟨numbers, other, rest, rfl, notNumber⟩
        · exact Or.inl ⟨number :: numbers, rfl⟩
        · exact Or.inr ⟨number :: numbers, other, rest, rfl, notNumber⟩
      · exact Or.inr ⟨[], value, values, rfl, Bool.eq_false_iff.mpr isNumber⟩

end Number

/-- Comparisons judge two numbers by their values, whatever their kinds. Exactly one of less, equal
and greater holds, and the other two comparisons are their unions. -/
structure Compared (call : Primitive → List Value → Except Failure Value) (a b : Number) :
    Prop where
  less : call .less [a.toValue, b.toValue] = .ok (.boolean (decide (a.toRat < b.toRat)))
  equal : call .numericEqual [a.toValue, b.toValue] = .ok (.boolean (decide (a.toRat = b.toRat)))
  greater : call .greater [a.toValue, b.toValue] = .ok (.boolean (decide (b.toRat < a.toRat)))
  lessEqual : call .lessEqual [a.toValue, b.toValue] =
    .ok (.boolean (decide (a.toRat < b.toRat ∨ a.toRat = b.toRat)))
  greaterEqual : call .greaterEqual [a.toValue, b.toValue] =
    .ok (.boolean (decide (b.toRat < a.toRat ∨ a.toRat = b.toRat)))
  one : ∃! operation, operation ∈ [Primitive.less, .numericEqual, .greater] ∧
    call operation [a.toValue, b.toValue] = .ok (.boolean true)

/-- A builtin totals its arguments exactly, whatever their number, order and grouping, and refuses
the first one that is no number. -/
structure TotalsExactly (call : List Value → Except Failure Value) (name : String)
    (total : List ℚ → ℚ) : Prop where
  exact : ∀ numbers : List Number, ∃ result : Number,
    call (numbers.map Number.toValue) = .ok result.toValue ∧ Number.Totals total numbers result
  permuted : ∀ numbers others : List Number, numbers.Perm others →
    call (numbers.map Number.toValue) = call (others.map Number.toValue)
  regrouped : ∀ grouping : Grouping,
    grouping.eval call = call (grouping.numbers.map Number.toValue)
  succeeds_iff : ∀ values, (∃ result, call values = .ok result) ↔ ∀ value ∈ values, value.isNumber
  refuses : ∀ (numbers : List Number) (other : Value) (rest : List Value),
    other.isNumber = false → call (numbers.map Number.toValue ++ other :: rest) =
      .error (.error (.typeMismatch name .number other.kind))

theorem Primitive.compareNumbers_toValue (name : String) (accepted : Ordering → Bool)
    (a b : Number) :
    compareNumbers name accepted a.toValue b.toValue = .ok (.boolean (accepted (a.order b))) := by
  rw [compareNumbers, Number.ofValue_toValue, Number.ofValue_toValue]
  rfl

theorem call_comparison (store : Store) (depth : Nat) (home : FrameId) (a b : Number)
    (operation : Primitive) (accepted : Ordering → Bool) {judged : Prop} [Decidable judged]
    (accepted_iff : accepted (a.order b) ↔ judged)
    (isComparison : operation.compute store [a.toValue, b.toValue] =
      Primitive.compareNumbers operation.name accepted a.toValue b.toValue)
    (callsNone : operation ∉ [.apply, .map]) :
    store.call (depth + 1) (.builtin (operation.builtin home)) [a.toValue, b.toValue] =
      .ok (.boolean (decide judged)) := by
  have accepted_eq : accepted (a.order b) = decide judged := by
    rw [Bool.eq_iff_iff, accepted_iff, decide_eq_true_iff]
  rw [Store.call_builtin callsNone, isComparison, Primitive.compareNumbers_toValue, accepted_eq]
  rfl

theorem compared (store : Store) (depth : Nat) (home : FrameId) (a b : Number) :
    Compared (fun operation => store.call (depth + 1) (.builtin (operation.builtin home))) a b := by
  rcases a.order_iff b with ⟨less_iff, equal_iff, greater_iff⟩
  have call := call_comparison store depth home a b
  have less := call .less (· == .lt) (beq_iff_eq.trans less_iff) rfl (by simp)
  have equal := call .numericEqual (· == .eq) (beq_iff_eq.trans equal_iff) rfl (by simp)
  have greater := call .greater (· == .gt) (beq_iff_eq.trans greater_iff) rfl (by simp)
  refine ⟨less, equal, greater, call .lessEqual (· != .gt) ?_ rfl (by simp),
    call .greaterEqual (· != .lt) ?_ rfl (by simp), ?_⟩
  · rw [← less_iff, ← equal_iff]
    cases a.order b <;> simp
  · rw [← greater_iff, ← equal_iff]
    cases a.order b <;> simp
  · simp only [List.mem_cons, List.not_mem_nil, or_false]
    rcases lt_trichotomy a.toRat b.toRat with isLess | isEqual | isGreater
    · refine ⟨.less, ⟨by simp, by simp [less, isLess]⟩, ?_⟩
      rintro operation ⟨rfl | rfl | rfl, holds⟩
      · rfl
      · simp [equal, isLess.ne] at holds
      · simp [greater, isLess.not_gt] at holds
    · refine ⟨.numericEqual, ⟨by simp, by simp [equal, isEqual]⟩, ?_⟩
      rintro operation ⟨rfl | rfl | rfl, holds⟩
      · simp [less, isEqual] at holds
      · rfl
      · simp [greater, isEqual] at holds
    · refine ⟨.greater, ⟨by simp, by simp [greater, isGreater]⟩, ?_⟩
      rintro operation ⟨rfl | rfl | rfl, holds⟩
      · simp [less, isGreater.not_gt] at holds
      · simp [equal, isGreater.ne'] at holds
      · rfl

theorem totalsExactly_of_foldl {step : Number → Number → Number} {unit : Number}
    {total : List ℚ → ℚ} {call : List Value → Except Failure Value} {name : String}
    (isTotal : IsTotal total)
    (totals : ∀ numbers : List Number, Number.Totals total numbers (numbers.foldl step unit))
    (folds : ∀ values, call values = orFail (do
      let numbers ← Number.ofValues name values
      return (numbers.foldl step unit).toValue)) :
    TotalsExactly call name total := by
  have exact : ∀ numbers : List Number, ∃ result : Number,
      call (numbers.map Number.toValue) = .ok result.toValue ∧
        Number.Totals total numbers result := by
    intro numbers
    rw [folds, Number.ofValues_map_toValue]
    exact ⟨_, rfl, totals numbers⟩
  have refuses : ∀ (numbers : List Number) (other : Value) (rest : List Value),
      other.isNumber = false → call (numbers.map Number.toValue ++ other :: rest) =
        .error (.error (.typeMismatch name .number other.kind)) := by
    intro numbers other rest notNumber
    rw [folds, Number.ofValues_of_not_isNumber name numbers notNumber]
    rfl
  refine ⟨exact, ?_, ?_, ?_, refuses⟩
  · intro numbers others permuted
    rcases exact numbers with ⟨result, called, resultTotals⟩
    rcases exact others with ⟨other, otherCalled, otherTotals⟩
    rw [called, otherCalled, (resultTotals.perm isTotal permuted).unique otherTotals]
  · intro grouping
    rcases grouping.eval_totals isTotal exact with ⟨result, evaluated, resultTotals⟩
    rcases exact grouping.numbers with ⟨flat, called, flatTotals⟩
    rw [evaluated, called, resultTotals.unique flatTotals]
  · intro values
    rcases Number.values_cases values with ⟨numbers, rfl⟩ | ⟨numbers, other, rest, rfl, notNumber⟩
    · rcases exact numbers with ⟨result, called, _⟩
      simp [called]
    · rw [refuses numbers other rest notNumber]
      constructor
      · rintro ⟨result, impossible⟩
        cases impossible
      · intro each
        have isNumber := each other (by simp)
        simp [notNumber] at isNumber

theorem Number.Exact.totals {operation : Number → Number → Number} {onValues : ℚ → ℚ → ℚ}
    (exact : Exact operation onValues) (start : Number) (startsInteger : start.isInteger)
    {total : List ℚ → ℚ} (folds : ∀ values, total values = values.foldl onValues start.toRat)
    (numbers : List Number) : Totals total numbers (numbers.foldl operation start) := by
  rcases exact.foldl start numbers with ⟨value_eq, kind_iff⟩
  refine ⟨value_eq.trans (folds _).symm, ?_⟩
  rw [kind_iff]
  exact and_iff_right startsInteger

theorem totalsExactly_add (store : Store) (depth : Nat) (home : FrameId) :
    TotalsExactly (store.call (depth + 1) (.builtin (Primitive.add.builtin home))) "+"
      List.sum := by
  apply totalsExactly_of_foldl isTotal_sum (Number.exact_add.totals (.integer 0) rfl ?_)
  · intro values
    exact Store.call_builtin (by simp) store depth home values
  · intro values
    exact List.sum_eq_foldl

theorem totalsExactly_multiply (store : Store) (depth : Nat) (home : FrameId) :
    TotalsExactly (store.call (depth + 1) (.builtin (Primitive.multiply.builtin home))) "*"
      List.prod := by
  apply totalsExactly_of_foldl isTotal_prod (Number.exact_multiply.totals (.integer 1) rfl ?_)
  · intro values
    exact Store.call_builtin (by simp) store depth home values
  · intro values
    exact List.prod_eq_foldl

/-- The numeric tower is exact. Sum, difference, product and opposite have the value that the
rational numbers give, as an integer exactly if every operand is one. A quotient is a float in
lowest terms, and only a divisor of value zero is refused. Numbers are compared by value across
kinds. The builtins `+` and `*` give the exact total of any number of arguments, for every order and
grouping, and refuse the first argument that is no number. -/
theorem numeric_tower_is_exact :
    Number.Exact Number.add (· + ·) ∧ Number.Exact Number.subtract (· - ·) ∧
    Number.Exact Number.multiply (· * ·) ∧
    (∀ a : Number, a.negate.toRat = -a.toRat ∧ (a.negate.isInteger ↔ a.isInteger)) ∧
    (∀ a b : Number, (a.divide b = .error .divisionByZero ↔ b.toRat = 0) ∧
      (b.toRat ≠ 0 → ∃ quotient : ℚ, a.divide b = .ok (.float quotient) ∧
        quotient = a.toRat / b.toRat ∧ 0 < quotient.den ∧
        quotient.num.natAbs.Coprime quotient.den)) ∧
    (∀ a b : Number, (a.order b = .lt ↔ a.toRat < b.toRat) ∧
      (a.order b = .eq ↔ a.toRat = b.toRat) ∧ (a.order b = .gt ↔ b.toRat < a.toRat)) ∧
    ∀ (store : Store) (depth : Nat) (home : FrameId),
      let call := fun operation : Primitive =>
        store.call (depth + 1) (.builtin (operation.builtin home))
      (∀ a b : Number, Compared call a b) ∧
      TotalsExactly (call .add) "+" List.sum ∧ TotalsExactly (call .multiply) "*" List.prod := by
  refine ⟨Number.exact_add, Number.exact_subtract, Number.exact_multiply, ?_, ?_,
    Number.order_iff, ?_⟩
  · intro a
    refine ⟨a.toRat_negate, ?_⟩
    cases a <;> rfl
  · intro a b
    by_cases zero : b.toRat = 0
    · rw [Number.divide_of_zero zero]
      exact ⟨iff_of_true rfl zero, fun nonzero => absurd zero nonzero⟩
    · rw [Number.divide_of_ne_zero zero]
      refine ⟨iff_of_false (by simp) zero, fun _ => ?_⟩
      exact ⟨_, rfl, rfl, Rat.den_pos _, Rat.reduced _⟩
  · intro store depth home
    exact ⟨compared store depth home, totalsExactly_add store depth home,
      totalsExactly_multiply store depth home⟩

theorem mixed_sum_is_nested_and_refused :
    let call := Store.empty.call 1 (.builtin (Primitive.add.builtin 0))
    Grouping.eval call
      (.group [.single (.integer 1), .group [.single (.float (1 / 2)), .single (.integer 2)]]) =
        call [.integer 1, .float (1 / 2), .integer 2] ∧
    call [.integer 1, .float (1 / 2), .integer 2] = .ok (.float (7 / 2)) ∧
    call [.integer 1, .string "2", .nil] =
      .error (.error (.typeMismatch "+" .number .string)) ∧
    (∃ quotient : ℚ, Number.divide (.integer 6) (.float 4) = .ok (.float quotient) ∧
      quotient = 6 / 4 ∧ quotient.num.natAbs.Coprime quotient.den) := by
  rcases numeric_tower_is_exact with ⟨_, _, _, _, quotients, _, builtins⟩
  rcases builtins Store.empty 0 0 with ⟨_, sums, _⟩
  rcases sums.exact [.integer 1, .float (1 / 2), .integer 2] with ⟨result, called, totals⟩
  rcases (quotients (.integer 6) (.float 4)).2 (by decide) with
    ⟨quotient, divided, isQuotient, _, lowest⟩
  have isFloat : result = .float (7 / 2) := by
    apply Number.eq_of_toRat_eq
    · rw [totals.value_eq]
      decide +kernel
    · rw [totals.kind_iff]
      decide
  subst isFloat
  refine ⟨sums.regrouped _, called, sums.refuses [.integer 1] (.string "2") [.nil] rfl, ?_⟩
  exact ⟨quotient, divided, isQuotient, lowest⟩

end ExactLisp
