import ExactLisp.Proofs.Equalities

/-!
# Equality by content as a congruence

Values that `equal?` calls equal cannot be told apart by the operations that look at numbers by
their value only, which are all but `eq?` and the two that call functions. What two equal values can
be is said once (`Value.equal_cases`); from it follow the views that operations take of their
arguments, and from those the operations. `Alike` carries both halves of the statement along: two
computations fail together, or succeed together with related values.
-/

namespace ExactLisp

/-! ### Computations that are alike -/

section Alike

variable {ε α β γ δ : Type} {related : α → β → Prop} {left : Except ε α} {right : Except ε β}

/-- Two computations fail both, or succeed both with related values. -/
inductive Alike (related : α → β → Prop) : Except ε α → Except ε β → Prop where
  | ok {value : α} {other : β} (pair : related value other) : Alike related (.ok value) (.ok other)
  | error (failure other : ε) : Alike related (.error failure) (.error other)

namespace Alike

theorem refl {related : α → α → Prop} (reflexive : ∀ value, related value value)
    (result : Except ε α) : Alike related result result := by
  cases result with
  | error failure => exact .error failure failure
  | ok value => exact .ok (reflexive value)

theorem bind {relatedNext : γ → δ → Prop} {nextLeft : α → Except ε γ} {nextRight : β → Except ε δ}
    (first : Alike related left right)
    (next : ∀ value other, related value other →
      Alike relatedNext (nextLeft value) (nextRight other)) :
    Alike relatedNext (left >>= nextLeft) (right >>= nextRight) := by
  cases first with
  | ok pair => exact next _ _ pair
  | error failure other => exact .error failure other

theorem map {relatedNext : γ → δ → Prop} {changeLeft : α → γ} {changeRight : β → δ}
    (first : Alike related left right)
    (changed : ∀ value other, related value other →
      relatedNext (changeLeft value) (changeRight other)) :
    Alike relatedNext (changeLeft <$> left) (changeRight <$> right) := by
  cases first with
  | ok pair => exact .ok (changed _ _ pair)
  | error failure other => exact .error failure other

theorem mapM {relatedItems : γ → δ → Prop} {visitLeft : γ → Except ε α}
    {visitRight : δ → Except ε β} {items : List γ} {others : List δ}
    (pairwise : List.Forall₂ relatedItems items others)
    (each : ∀ item other, relatedItems item other →
      Alike related (visitLeft item) (visitRight other)) :
    Alike (List.Forall₂ related) (items.mapM visitLeft) (others.mapM visitRight) := by
  induction pairwise with
  | nil => exact .ok .nil
  | cons first _ ih =>
      rw [List.mapM_cons, List.mapM_cons]
      apply (each _ _ first).bind
      intro value other pair
      apply ih.bind
      intro values otherValues pairs
      exact .ok (.cons pair pairs)

end Alike

theorem alike_orFail {left : Except EvalError α} {right : Except EvalError β}
    (first : Alike related left right) : Alike related (orFail left) (orFail right) := by
  cases first with
  | ok pair => exact .ok pair
  | error failure other => exact .error _ _

end Alike

/-! ### Views of equal values -/

/-- Two values are equal by content. -/
abbrev Value.IsEqual (store : Store) (a b : Value) : Prop :=
  a.equal store b = true

namespace Value

variable {store : Store} {a b : Value}

theorem isEqual_list_iff {items others : List Value} :
    IsEqual store (list items) (list others) ↔ List.Forall₂ (IsEqual store) items others := by
  rw [IsEqual, equal, equalItems_iff]

/-- What two equal values can be: lists of equal items, numbers of one value, functions, or the
same atom. -/
theorem equal_cases (isEqual : IsEqual store a b) :
    (∃ items others, a = list items ∧ b = list others ∧
      List.Forall₂ (IsEqual store) items others) ∨
    (∃ m n : Number, a = m.toValue ∧ b = n.toValue ∧ m.toRat = n.toRat) ∨
    (∃ f g, a = function f ∧ b = function g) ∨
    a = b := by
  by_cases numbers : a.isNumber ∧ b.isNumber
  · rcases Number.exists_toValue_eq numbers.1 with ⟨m, rfl⟩
    rcases Number.exists_toValue_eq numbers.2 with ⟨n, rfl⟩
    exact Or.inr (Or.inl ⟨m, n, rfl, rfl, equal_toValue_iff.mp isEqual⟩)
  · cases a with
    | list items =>
        cases b with
        | list others => exact Or.inl ⟨items, others, rfl, rfl, isEqual_list_iff.mp isEqual⟩
        | _ => simp [IsEqual, equal, eqv, isNumber] at isEqual
    | function f =>
        cases b with
        | function g => exact Or.inr (Or.inr (Or.inl ⟨f, g, rfl, rfl⟩))
        | _ => simp [IsEqual, equal, eqv, isNumber] at isEqual
    | _ =>
        cases b <;> simp [IsEqual, equal, eqv, isNumber] at isEqual numbers
        all_goals simp [isEqual]

theorem isEqual_refl (store : Store) (value : Value) : IsEqual store value value :=
  equal_iff.mpr rfl

theorem isTruthy_toValue (number : Number) : number.toValue.isTruthy = !number.isZero := by
  cases number <;> rfl

theorem isTruthy_eq (isEqual : IsEqual store a b) : a.isTruthy = b.isTruthy := by
  rcases equal_cases isEqual with
    ⟨items, others, rfl, rfl, pairs⟩ | ⟨m, n, rfl, rfl, sameValue⟩ | ⟨f, g, rfl, rfl⟩ | rfl
  · cases pairs <;> rfl
  · have zero_iff : m.isZero = n.isZero := by
      rw [Bool.eq_iff_iff, Number.isZero_iff, Number.isZero_iff, sameValue]
    rw [isTruthy_toValue, isTruthy_toValue, zero_iff]
  · rfl
  · rfl

theorem alike_asList (isEqual : IsEqual store a b) (operation : String) :
    Alike (List.Forall₂ (IsEqual store)) (a.asList operation) (b.asList operation) := by
  rcases equal_cases isEqual with
    ⟨items, others, rfl, rfl, pairs⟩ | ⟨m, n, rfl, rfl, _⟩ | ⟨f, g, rfl, rfl⟩ | rfl
  · exact .ok pairs
  · cases m <;> cases n <;> exact .error _ _
  · exact .error _ _
  · exact .refl (fun items => List.forall₂_same.mpr fun item _ => isEqual_refl store item) _

theorem alike_asNonEmptyList (isEqual : IsEqual store a b) (operation : String) :
    Alike (fun items others => IsEqual store items.1 others.1 ∧
        List.Forall₂ (IsEqual store) items.2 others.2)
      (a.asNonEmptyList operation) (b.asNonEmptyList operation) := by
  rcases equal_cases isEqual with
    ⟨items, others, rfl, rfl, pairs⟩ | ⟨m, n, rfl, rfl, _⟩ | ⟨f, g, rfl, rfl⟩ | rfl
  · cases pairs with
    | nil => exact .error _ _
    | cons first rest => exact .ok ⟨first, rest⟩
  · cases m <;> cases n <;> exact .error _ _
  · exact .error _ _
  · exact .refl (fun items => ⟨isEqual_refl store items.1,
      List.forall₂_same.mpr fun item _ => isEqual_refl store item⟩) _

theorem alike_ofValue (isEqual : IsEqual store a b) (operation : String) :
    Alike (fun m n => m.toRat = n.toRat) (Number.ofValue operation a)
      (Number.ofValue operation b) := by
  rcases equal_cases isEqual with
    ⟨items, others, rfl, rfl, _⟩ | ⟨m, n, rfl, rfl, sameValue⟩ | ⟨f, g, rfl, rfl⟩ | rfl
  · exact .error _ _
  · rw [Number.ofValue_toValue, Number.ofValue_toValue]
    exact .ok sameValue
  · exact .error _ _
  · apply Alike.refl
    exact fun _ => rfl

theorem isEqual_getLastD {args others : List Value}
    (pairwise : List.Forall₂ (IsEqual store) args others) {default other : Value}
    (defaults : IsEqual store default other) :
    IsEqual store (args.getLastD default) (others.getLastD other) := by
  induction pairwise generalizing default other with
  | nil => exact defaults
  | cons first _ ih =>
      rw [List.getLastD_cons, List.getLastD_cons]
      exact ih first

theorem map_isTruthy_eq {args others : List Value}
    (pairwise : List.Forall₂ (IsEqual store) args others) :
    args.map isTruthy = others.map isTruthy := by
  rw [← List.forall₂_eq_eq_eq, List.forall₂_map_left_iff, List.forall₂_map_right_iff]
  exact pairwise.imp fun _ _ => isTruthy_eq

end Value

/-! ### Operations on equal arguments -/

namespace Number

theorem map_toRat_eq {numbers others : List Number}
    (pairwise : List.Forall₂ (fun m n => m.toRat = n.toRat) numbers others) :
    numbers.map toRat = others.map toRat := by
  rw [← List.forall₂_eq_eq_eq, List.forall₂_map_left_iff, List.forall₂_map_right_iff]
  exact pairwise

theorem Exact.toRat_foldl_eq {operation : Number → Number → Number} {onValues : ℚ → ℚ → ℚ}
    (exact : Exact operation onValues) (start : Number) {numbers others : List Number}
    (pairwise : List.Forall₂ (fun m n => m.toRat = n.toRat) numbers others) :
    (numbers.foldl operation start).toRat = (others.foldl operation start).toRat := by
  rw [(exact.foldl start numbers).1, (exact.foldl start others).1, map_toRat_eq pairwise]

theorem alike_subtract {minuend other m n : Number} (minuends : minuend.toRat = other.toRat)
    (subtrahends : m.toRat = n.toRat) :
    Alike (fun m n => m.toRat = n.toRat) (.ok (minuend.subtract m) : Except EvalError Number)
      (.ok (other.subtract n)) := by
  apply Alike.ok
  rw [exact_subtract.value_eq, exact_subtract.value_eq, minuends, subtrahends]

theorem alike_divide {dividend other m n : Number} (dividends : dividend.toRat = other.toRat)
    (divisors : m.toRat = n.toRat) :
    Alike (fun m n => m.toRat = n.toRat) (dividend.divide m) (other.divide n) := by
  by_cases zero : m.toRat = 0
  · rw [divide_of_zero zero, divide_of_zero (divisors ▸ zero)]
    exact .error _ _
  · rw [divide_of_ne_zero zero, divide_of_ne_zero (divisors ▸ zero), dividends, divisors]
    exact .ok rfl

end Number

namespace Primitive

variable {store : Store}

theorem alike_compareNumbers (operation : String) (accepted : Ordering → Bool)
    {first second firstOther secondOther : Value} (firsts : first.IsEqual store firstOther)
    (seconds : second.IsEqual store secondOther) :
    Alike (Value.IsEqual store) (compareNumbers operation accepted first second)
      (compareNumbers operation accepted firstOther secondOther) := by
  apply (Value.alike_ofValue firsts operation).bind
  intro m n sameFirst
  apply (Value.alike_ofValue seconds operation).bind
  intro p q sameSecond
  rw [m.order_eq, n.order_eq, sameFirst, sameSecond]
  exact .ok (Value.isEqual_refl store _)

theorem alike_calculation {calculate : Number → Number → Except EvalError Number}
    (byValue : ∀ {m n p q : Number}, m.toRat = n.toRat → p.toRat = q.toRat →
      Alike (fun m n => m.toRat = n.toRat) (calculate m p) (calculate n q))
    (operation : String) {first second firstOther secondOther : Value}
    (firsts : first.IsEqual store firstOther) (seconds : second.IsEqual store secondOther) :
    Alike (Value.IsEqual store)
      (do
        let m ← Number.ofValue operation first
        let p ← Number.ofValue operation second
        return (← calculate m p).toValue)
      (do
        let n ← Number.ofValue operation firstOther
        let q ← Number.ofValue operation secondOther
        return (← calculate n q).toValue) := by
  apply (Value.alike_ofValue firsts operation).bind
  intro m n sameFirst
  apply (Value.alike_ofValue seconds operation).bind
  intro p q sameSecond
  apply (byValue sameFirst sameSecond).bind
  intro result other sameResult
  exact .ok (Value.equal_toValue_iff.mpr sameResult)

theorem exists_one {args others : List Value}
    (pairwise : List.Forall₂ (Value.IsEqual store) args others) (one : args.length = 1) :
    ∃ a b, args = [a] ∧ others = [b] ∧ a.IsEqual store b := by
  rcases List.length_eq_one_iff.mp one with ⟨a, rfl⟩
  rcases pairwise with _ | ⟨first, rest⟩
  cases rest
  exact ⟨_, _, rfl, rfl, first⟩

theorem exists_two {args others : List Value}
    (pairwise : List.Forall₂ (Value.IsEqual store) args others) (two : args.length = 2) :
    ∃ a b c d, args = [a, b] ∧ others = [c, d] ∧ a.IsEqual store c ∧ b.IsEqual store d := by
  rcases List.length_eq_two.mp two with ⟨a, b, rfl⟩
  rcases pairwise with _ | ⟨first, rest⟩
  rcases rest with _ | ⟨second, rest⟩
  cases rest
  exact ⟨_, _, _, _, rfl, rfl, first, second⟩

theorem alike_total {step : Number → Number → Number} {onValues : ℚ → ℚ → ℚ}
    (exact : Number.Exact step onValues) (start : Number) (operation : String)
    {args others : List Value} (pairwise : List.Forall₂ (Value.IsEqual store) args others) :
    Alike (Value.IsEqual store)
      (do return ((← Number.ofValues operation args).foldl step start).toValue)
      (do return ((← Number.ofValues operation others).foldl step start).toValue) := by
  apply (Alike.mapM pairwise fun _ _ isEqual => Value.alike_ofValue isEqual operation).bind
  intro numbers otherNumbers sameValues
  exact .ok (Value.equal_toValue_iff.mpr (exact.toRat_foldl_eq start sameValues))

/-- Operations that look at numbers by their value only do not tell equal arguments apart. -/
theorem alike_compute {operation : Primitive} (byContent : operation ∉ [same, apply, map])
    {args others : List Value} (pairwise : List.Forall₂ (Value.IsEqual store) args others) :
    Alike (Value.IsEqual store) (operation.compute store args)
      (operation.compute store others) := by
  by_cases accepted : operation.arity.accepts args.length
  · have one : operation.arity = .fixed 1 → ∃ a b, args = [a] ∧ others = [b] ∧
        a.IsEqual store b := by
      intro isOne
      exact exists_one pairwise (by simpa [isOne, Arity.accepts] using accepted)
    have two : operation.arity = .fixed 2 → ∃ a b c d, args = [a, b] ∧ others = [c, d] ∧
        a.IsEqual store c ∧ b.IsEqual store d := by
      intro isTwo
      exact exists_two pairwise (by simpa [isTwo, Arity.accepts] using accepted)
    cases operation with
    | car =>
        rcases one rfl with ⟨a, b, rfl, rfl, isEqual⟩
        exact (Value.alike_asNonEmptyList isEqual "car").map fun _ _ items => items.1
    | cdr =>
        rcases one rfl with ⟨a, b, rfl, rfl, isEqual⟩
        apply (Value.alike_asNonEmptyList isEqual "cdr").map
        intro items otherItems pairs
        exact Value.isEqual_list_iff.mpr pairs.2
    | cons =>
        rcases two rfl with ⟨a, b, c, d, rfl, rfl, heads, tails⟩
        apply (Value.alike_asList tails "cons").map
        intro items otherItems pairs
        exact Value.isEqual_list_iff.mpr (.cons heads pairs)
    | list => exact .ok (Value.isEqual_list_iff.mpr pairwise)
    | length =>
        rcases one rfl with ⟨a, b, rfl, rfl, isEqual⟩
        apply (Value.alike_asList isEqual "length").map
        intro items otherItems pairs
        rw [pairs.length_eq]
        exact Value.isEqual_refl store _
    | add => exact alike_total Number.exact_add (.integer 0) "+" pairwise
    | multiply => exact alike_total Number.exact_multiply (.integer 1) "*" pairwise
    | subtract =>
        have oneOrTwo : args.length = 1 ∨ args.length = 2 := by
          simp only [arity, Arity.accepts, Bool.and_eq_true, decide_eq_true_iff] at accepted
          omega
        rcases oneOrTwo with isOne | isTwo
        · rcases exists_one pairwise isOne with ⟨a, b, rfl, rfl, isEqual⟩
          apply (Value.alike_ofValue isEqual "-").bind
          intro number other sameValue
          apply Alike.ok
          rw [Value.IsEqual, Value.equal_toValue_iff, number.toRat_negate, other.toRat_negate,
            sameValue]
        · rcases exists_two pairwise isTwo with ⟨a, b, c, d, rfl, rfl, minuends, subtrahends⟩
          exact alike_calculation Number.alike_subtract "-" minuends subtrahends
    | divide =>
        rcases two rfl with ⟨a, b, c, d, rfl, rfl, dividends, divisors⟩
        exact alike_calculation Number.alike_divide "/" dividends divisors
    | greater | less | greaterEqual | lessEqual | numericEqual =>
        rcases two rfl with ⟨a, b, c, d, rfl, rfl, firsts, seconds⟩
        rw [compute, compute]
        exact alike_compareNumbers _ _ firsts seconds
    | equal =>
        rcases two rfl with ⟨a, b, c, d, rfl, rfl, firsts, seconds⟩
        have sameAnswer : a.equal store b = c.equal store d := by
          rw [Bool.eq_iff_iff, Value.equal_iff, Value.equal_iff, Value.equal_iff.mp firsts,
            Value.equal_iff.mp seconds]
        rw [compute, compute, sameAnswer]
        exact .ok (Value.isEqual_refl store _)
    | negation =>
        rcases one rfl with ⟨a, b, rfl, rfl, isEqual⟩
        rw [compute, compute, Value.isTruthy_eq isEqual]
        exact .ok (Value.isEqual_refl store _)
    | conjunction =>
        have sameAnswer : args.all Value.isTruthy = others.all Value.isTruthy := by
          simpa using congrArg (List.all · id) (Value.map_isTruthy_eq pairwise)
        rw [compute, compute, sameAnswer]
        exact .ok (Value.isEqual_refl store _)
    | disjunction =>
        have sameAnswer : args.any Value.isTruthy = others.any Value.isTruthy := by
          simpa using congrArg (List.any · id) (Value.map_isTruthy_eq pairwise)
        rw [compute, compute, sameAnswer]
        exact .ok (Value.isEqual_refl store _)
    | last => exact .ok (Value.isEqual_getLastD pairwise (Value.isEqual_refl store .nil))
    | same | apply | map => simp at byContent
  · have refused : operation.arity.accepts args.length = false := Bool.eq_false_iff.mpr accepted
    rw [compute_of_not_accepts refused]
    rw [pairwise.length_eq] at refused
    rw [compute_of_not_accepts refused]
    exact .error _ _

end Primitive

/-! ### Choices -/

/-- A choice whose test gives one value is a choice whose test gives the other: in evaluation, in a
compiled body, and where a constant test is folded away. -/
structure SameTest (a b : Value) : Prop where
  truth : a.isTruthy = b.isTruthy
  evaluated : ∀ (invoke : Store → Function → List Value → Except Failure Value) (scope : Scope)
    (test other onTrue onFalse : Expr) (before after : Store),
    Evaluation.outcome (test.evalWith invoke scope) before = (.ok a, after) →
    Evaluation.outcome (other.evalWith invoke scope) before = (.ok b, after) →
    Evaluation.outcome ((Expr.branch test onTrue onFalse).evalWith invoke scope) before =
      Evaluation.outcome ((Expr.branch other onTrue onFalse).evalWith invoke scope) before
  compiled : ∀ (store : Store) (invoke : Function → List Value → Except Failure Value)
    (args : List Value) (test other onTrue onFalse : Node),
    test.eval store invoke args = .ok a → other.eval store invoke args = .ok b →
    (Node.branch test onTrue onFalse).eval store invoke args =
      (Node.branch other onTrue onFalse).eval store invoke args
  folded : ∀ onTrue onFalse : Node, Node.foldBranch (.constant a) onTrue onFalse =
    Node.foldBranch (.constant b) onTrue onFalse

theorem sameTest_of_isTruthy_eq {a b : Value} (truth : a.isTruthy = b.isTruthy) :
    SameTest a b where
  truth := truth
  evaluated := by
    intro invoke scope test other onTrue onFalse before after testGives otherGives
    rw [Expr.evalWith, Expr.evalWith, Evaluation.outcome_bind_ok testGives,
      Evaluation.outcome_bind_ok otherGives, truth]
  compiled := by
    intro store invoke args test other onTrue onFalse testGives otherGives
    rw [Node.eval, Node.eval, testGives, otherGives]
    change (if a.isTruthy then _ else _) = (if b.isTruthy then _ else _)
    rw [truth]
  folded := by
    intro onTrue onFalse
    simp only [Node.foldBranch, Node.constant?, truth]

/-- Equality by content is a congruence. Every builtin but `eq?`, `apply` and `map` fails on both of
two lists of pairwise equal arguments, or gives equal values on them; and no choice tells equal
values apart. -/
theorem equal_is_a_congruence (store : Store) :
    (∀ (depth : Nat) (home : FrameId) (operation : Primitive), operation ∉ [.same, .apply, .map] →
      ∀ args others : List Value, List.Forall₂ (Value.IsEqual store) args others →
        Alike (Value.IsEqual store)
          (store.call (depth + 1) (.builtin (operation.builtin home)) args)
          (store.call (depth + 1) (.builtin (operation.builtin home)) others)) ∧
    ∀ a b : Value, a.IsEqual store b → SameTest a b := by
  constructor
  · intro depth home operation byContent args others pairwise
    have callsNone : operation ∉ [.apply, .map] := by
      intro calls
      exact byContent (List.mem_cons_of_mem _ calls)
    rw [Store.call_builtin callsNone, Store.call_builtin callsNone]
    exact alike_orFail (Primitive.alike_compute byContent pairwise)
  · intro a b isEqual
    exact sameTest_of_isTruthy_eq (Value.isTruthy_eq isEqual)

theorem lists_of_mixed_kinds_are_extended_alike :
    let args : List Value := [.integer 1, .list [.float 2, .nil]]
    let others : List Value := [.float 1, .list [.integer 2, .nil]]
    let call := Store.empty.call 1 (.builtin (Primitive.cons.builtin 0))
    List.Forall₂ (Value.IsEqual Store.empty) args others ∧
      Alike (Value.IsEqual Store.empty) (call args) (call others) ∧
      Value.IsEqual Store.empty (.integer 0) (.float 0) ∧ SameTest (.integer 0) (.float 0) := by
  intro args others call
  have zeros : Value.IsEqual Store.empty (.integer 0) (.float 0) := by decide +kernel
  have pairwise : List.Forall₂ (Value.IsEqual Store.empty) args others := by
    refine .cons ?_ (.cons ?_ .nil)
    · decide +kernel
    · decide +kernel
  rcases equal_is_a_congruence Store.empty with ⟨congruent, choices⟩
  exact ⟨pairwise, congruent 0 0 .cons (by decide) args others pairwise, zeros, choices _ _ zeros⟩

-- `eq?` does tell an integer from a float of the same value
example : Primitive.same.compute Store.empty [.integer 1, .integer 1] = .ok (.boolean true) ∧
    Primitive.same.compute Store.empty [.integer 1, .float 1] = .ok (.boolean false) :=
  ⟨rfl, rfl⟩

end ExactLisp
