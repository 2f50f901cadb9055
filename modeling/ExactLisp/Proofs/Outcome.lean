import ExactLisp.Interpreter
import Mathlib.Data.List.Forall2

/-!
# Outcomes

How outcomes are put together, step after step. `Evaluation.outcome` shows an evaluation as a result
and the store that it leaves, for a success and for a failure alike.

Two computations are compared and judged at once: `Coincide` says of two results, and
`Evaluation.Agree` of two evaluations, that they are one and that what comes out is as required. The
two halves need each other: that a second call is the same as the first rests on what the steps
before it have returned.
-/

namespace ExactLisp

variable {ε α β : Type}

/-! ### Results -/

/-- A computation succeeds exactly if each of its steps does. -/
theorem bind_eq_ok_iff {result : Except ε α} {next : α → Except ε β} {value : β} :
    result >>= next = .ok value ↔ ∃ middle, result = .ok middle ∧ next middle = .ok value := by
  cases result with
  | error failure => simp [bind, Except.bind]
  | ok middle => simp [bind, Except.bind]

theorem map_eq_ok_iff {result : Except ε α} {change : α → β} {value : β} :
    change <$> result = .ok value ↔ ∃ middle, result = .ok middle ∧ change middle = value := by
  cases result with
  | error failure => simp [Functor.map, Except.map]
  | ok middle => simp [Functor.map, Except.map]

theorem bind_eq_error_iff {result : Except ε α} {next : α → Except ε β} {failure : ε} :
    result >>= next = .error failure ↔
      result = .error failure ∨ ∃ middle, result = .ok middle ∧ next middle = .error failure := by
  cases result with
  | error failure => simp [bind, Except.bind]
  | ok middle => simp [bind, Except.bind]

theorem map_eq_error_iff {result : Except ε α} {change : α → β} {failure : ε} :
    change <$> result = .error failure ↔ result = .error failure := by
  cases result with
  | error failure => simp [Functor.map, Except.map]
  | ok middle => simp [Functor.map, Except.map]

/-- A computation over a list returns what it returns for each item. -/
theorem mapM_eq_ok_iff {visit : α → Except ε β} {items : List α} {values : List β} :
    items.mapM visit = .ok values ↔
      List.Forall₂ (fun item value => visit item = .ok value) items values := by
  induction items generalizing values with
  | nil =>
      rw [List.mapM_nil, List.forall₂_nil_left_iff]
      exact ⟨fun same => (Except.ok.inj same).symm, fun same => same ▸ rfl⟩
  | cons item items ih =>
      rw [List.mapM_cons, bind_eq_ok_iff]
      constructor
      · rintro ⟨value, isFirst, rest⟩
        rcases bind_eq_ok_iff.mp rest with ⟨others, areOthers, same⟩
        cases same
        exact .cons isFirst (ih.mp areOthers)
      · rintro (_ | ⟨isFirst, areOthers⟩)
        exact ⟨_, isFirst, bind_eq_ok_iff.mpr ⟨_, ih.mpr areOthers, rfl⟩⟩

/-- If a computation over a list succeeds, it does so on every item. -/
theorem ok_of_mapM_eq_ok {visit : α → Except ε β} {items : List α} {values : List β}
    (succeeds : items.mapM visit = .ok values) {item : α} (itemMem : item ∈ items) :
    ∃ value, visit item = .ok value := by
  induction items generalizing values with
  | nil => exact absurd itemMem List.not_mem_nil
  | cons first rest ih =>
      rw [List.mapM_cons] at succeeds
      rcases bind_eq_ok_iff.mp succeeds with ⟨value, firstOk, succeeds⟩
      rcases bind_eq_ok_iff.mp succeeds with ⟨others, restOk, _⟩
      rcases List.mem_cons.mp itemMem with rfl | restMem
      · exact ⟨value, firstOk⟩
      · exact ih restOk restMem

/-- What a computation over a list returns has every property that it gives to each item. -/
theorem forall_of_mapM_eq_ok {visit : α → Except ε β} {items : List α} {values : List β}
    {holds : β → Prop} (succeeds : items.mapM visit = .ok values)
    (each : ∀ item ∈ items, ∀ value, visit item = .ok value → holds value) :
    ∀ value ∈ values, holds value := by
  induction items generalizing values with
  | nil =>
      cases succeeds
      intro value valueMem
      exact absurd valueMem List.not_mem_nil
  | cons item items ih =>
      rw [List.mapM_cons] at succeeds
      rcases bind_eq_ok_iff.mp succeeds with ⟨first, firstOk, succeeds⟩
      rcases bind_eq_ok_iff.mp succeeds with ⟨rest, restOk, succeeds⟩
      cases succeeds
      rw [List.forall_mem_cons]
      refine ⟨each item List.mem_cons_self first firstOk, ?_⟩
      exact ih restOk fun other otherMem => each other (List.mem_cons_of_mem _ otherMem)

section Change

variable {γ δ : Type}

theorem bind_eq_map {left : Except ε α} {right : Except ε β} {next : α → Except ε γ}
    {nextRight : β → Except ε δ} {change : α → β} {changeNext : γ → δ}
    (first : right = left.map change)
    (rest : ∀ value, nextRight (change value) = (next value).map changeNext) :
    right >>= nextRight = (left >>= next).map changeNext := by
  subst first
  cases left with
  | error failure => rfl
  | ok value => exact rest value

theorem map_eq_map {left : Except ε α} {right : Except ε β} {after : α → γ} {afterRight : β → δ}
    {change : α → β} {changeNext : γ → δ} (first : right = left.map change)
    (rest : ∀ value, afterRight (change value) = changeNext (after value)) :
    afterRight <$> right = (after <$> left).map changeNext := by
  subst first
  cases left with
  | error failure => rfl
  | ok value => exact congrArg Except.ok (rest value)

theorem mapM_eq_map {items : List α} {visit : α → Except ε γ} {visitRight : β → Except ε δ}
    {change : α → β} {changeValue : γ → δ}
    (each : ∀ item ∈ items, visitRight (change item) = (visit item).map changeValue) :
    (items.map change).mapM visitRight = (items.mapM visit).map (List.map changeValue) := by
  induction items with
  | nil => rfl
  | cons item items ih =>
      rw [List.forall_mem_cons] at each
      rw [List.map_cons, List.mapM_cons, List.mapM_cons]
      apply bind_eq_map each.1
      intro value
      apply bind_eq_map (ih each.2)
      intro values
      rfl

theorem orFail_eq_map {left : Except EvalError α} {right : Except EvalError β} {change : α → β}
    (same : right = left.map change) : orFail right = (orFail left).map change := by
  subst same
  cases left <;> rfl

end Change

/-- A result is as required: a value that `returns` allows, or a failure that `fails` allows. -/
def Meets (returns : α → Prop) (fails : ε → Prop) : Except ε α → Prop
  | .ok value => returns value
  | .error failure => fails failure

theorem Meets.mono {returns returnsMore : α → Prop} {fails failsMore : ε → Prop}
    {result : Except ε α} (meets : Meets returns fails result)
    (values : ∀ value, returns value → returnsMore value)
    (failures : ∀ failure, fails failure → failsMore failure) :
    Meets returnsMore failsMore result := by
  cases result with
  | error failure => exact failures failure meets
  | ok value => exact values value meets

theorem Meets.of_ok {returns : α → Prop} {fails : ε → Prop} {result : Except ε α} {value : α}
    (meets : Meets returns fails result) (succeeded : result = .ok value) : returns value := by
  subst succeeded
  exact meets

theorem Meets.of_error {returns : α → Prop} {fails : ε → Prop} {result : Except ε α} {failure : ε}
    (meets : Meets returns fails result) (failed : result = .error failure) : fails failure := by
  subst failed
  exact meets

/-- Two results are one, and it is as required. -/
def Coincide (returns : α → Prop) (fails : ε → Prop) (left right : Except ε α) : Prop :=
  right = left ∧ Meets returns fails left

namespace Coincide

variable {returns : α → Prop} {fails : ε → Prop} {left right : Except ε α}

theorem ok {value : α} (allowed : returns value) :
    Coincide returns fails (.ok value) (.ok value) :=
  ⟨rfl, allowed⟩

theorem error {failure : ε} (allowed : fails failure) :
    Coincide returns fails (.error failure) (.error failure) :=
  ⟨rfl, allowed⟩

theorem meets_right (same : Coincide returns fails left right) : Meets returns fails right := by
  rw [same.1]
  exact same.2

theorem unrestricted (result : Except ε α) (anyValue : ∀ value, returns value)
    (anyFailure : ∀ failure, fails failure) : Coincide returns fails result result := by
  cases result with
  | error failure => exact error (anyFailure failure)
  | ok value => exact ok (anyValue value)

/-- Results that coincide go on to coincide if the next steps do, on every value that may come
before. -/
theorem bind {returnsNext : β → Prop} {nextLeft nextRight : α → Except ε β}
    (first : Coincide returns fails left right)
    (next : ∀ value, returns value → Coincide returnsNext fails (nextLeft value) (nextRight value)) :
    Coincide returnsNext fails (left >>= nextLeft) (right >>= nextRight) := by
  rcases first with ⟨same, meets⟩
  rw [same]
  cases left with
  | error failure => exact error meets
  | ok value => exact next value meets

theorem map {returnsNext : β → Prop} {change : α → β} (first : Coincide returns fails left right)
    (changed : ∀ value, returns value → returnsNext (change value)) :
    Coincide returnsNext fails (change <$> left) (change <$> right) := by
  rcases first with ⟨same, meets⟩
  rw [same]
  cases left with
  | error failure => exact error meets
  | ok value => exact ok (changed value meets)

/-- One computation carried out over a list. -/
theorem mapM {returnsEach : β → Prop} {stepLeft stepRight : α → Except ε β} (items : List α)
    (each : ∀ item ∈ items, Coincide returnsEach fails (stepLeft item) (stepRight item)) :
    Coincide (fun values => ∀ value ∈ values, returnsEach value) fails
      (items.mapM stepLeft) (items.mapM stepRight) := by
  induction items with
  | nil => exact ok (by simp)
  | cons item items ih =>
      rw [List.mapM_cons, List.mapM_cons]
      apply bind (each item List.mem_cons_self)
      intro value valueAllowed
      apply bind (ih fun other otherMem => each other (List.mem_cons_of_mem _ otherMem))
      intro values valuesAllowed
      exact ok (List.forall_mem_cons.mpr ⟨valueAllowed, valuesAllowed⟩)

end Coincide

/-- An error of the program is a failure of the evaluation, and nothing else changes. -/
theorem coincide_orFail {returns : α → Prop} {fails : Failure → Prop}
    {left right : Except EvalError α}
    (same : Coincide returns (fun cause => fails (.error cause)) left right) :
    Coincide returns fails (orFail left) (orFail right) := by
  rcases same with ⟨same, meets⟩
  rw [same]
  cases left with
  | error cause => exact .error meets
  | ok value => exact .ok meets

/-! ### Lists

The functions on lists of trees carry out the function on trees from left to right.
-/

theorem Form.toCodes_eq_mapM (forms : List Form) : toCodes forms = forms.mapM toCode := by
  induction forms with
  | nil => rfl
  | cons form forms ih => rw [toCodes, List.mapM_cons, ih]

theorem Form.toData_eq_mapM (forms : List Form) : toData forms = forms.mapM toDatum := by
  induction forms with
  | nil => rfl
  | cons form forms ih => rw [toData, List.mapM_cons, ih]

theorem Node.evalEach_eq_mapM (store : Store)
    (invoke : Function → List Value → Except Failure Value) (args : List Value)
    (nodes : List Node) :
    Node.evalEach store invoke args nodes = nodes.mapM (Node.eval store invoke args) := by
  induction nodes with
  | nil => rfl
  | cons node nodes ih => rw [Node.evalEach, List.mapM_cons, ih]

theorem Expr.compileEach_eq_mapM (context : CompileContext) (exprs : List Expr) :
    Expr.compileEach context exprs = exprs.mapM (Expr.compile context) := by
  induction exprs with
  | nil => rfl
  | cons expr exprs ih => rw [Expr.compileEach, List.mapM_cons, ih]

theorem Expr.compileData_eq_mapM (context : CompileContext) (exprs : List Expr) :
    Expr.compileData context exprs = exprs.mapM (Expr.compileDatum context) := by
  induction exprs with
  | nil => rfl
  | cons expr exprs ih => rw [Expr.compileData, List.mapM_cons, ih]

theorem Expr.evalEach_eq_mapM (invoke : Store → Function → List Value → Except Failure Value)
    (scope : Scope) (exprs : List Expr) :
    Expr.evalEach invoke scope exprs = exprs.mapM (Expr.evalWith invoke scope) := by
  induction exprs with
  | nil => rfl
  | cons expr exprs ih => rw [Expr.evalEach, List.mapM_cons, ih]

theorem Expr.evalData_eq_mapM (invoke : Store → Function → List Value → Except Failure Value)
    (scope : Scope) (exprs : List Expr) :
    Expr.evalData invoke scope exprs = exprs.mapM (Expr.evalDatum invoke scope) := by
  induction exprs with
  | nil => rfl
  | cons expr exprs ih => rw [Expr.evalData, List.mapM_cons, ih]

/-! ### Evaluations -/

namespace Evaluation

/-- The result of an evaluation and the store it leaves. -/
def outcome (run : Evaluation α) (store : Store) : Except Failure α × Store :=
  match run store with
  | .ok value left => (.ok value, left)
  | .error failure left => (.error failure, left)

@[simp]
theorem outcome_pure (value : α) (store : Store) :
    outcome (pure value) store = (.ok value, store) := rfl

@[simp]
theorem outcome_ofExcept (result : Except Failure α) (store : Store) :
    outcome (ofExcept result) store = (result, store) := by
  cases result <;> rfl

@[simp]
theorem outcome_read (query : Store → Except Failure α) (store : Store) :
    outcome (read query) store = (query store, store) :=
  outcome_ofExcept (query store) store

@[simp]
theorem outcome_define (scope : Scope) (name : String) (value : Value) (store : Store) :
    outcome (define scope name value) store = (.ok value, store.define scope name value) := rfl

theorem outcome_bind_ok {run : Evaluation α} {next : α → Evaluation β} {store left : Store}
    {value : α} (first : run.outcome store = (.ok value, left)) :
    outcome (run >>= next) store = (next value).outcome left := by
  simp only [outcome] at first ⊢
  simp only [bind, EStateM.bind]
  cases reached : run store <;> simp_all

theorem outcome_bind_error {run : Evaluation α} {next : α → Evaluation β} {store left : Store}
    {failure : Failure} (first : run.outcome store = (.error failure, left)) :
    outcome (run >>= next) store = (.error failure, left) := by
  simp only [outcome] at first ⊢
  simp only [bind, EStateM.bind]
  cases reached : run store <;> simp_all

/-- From one store, two evaluations have one outcome, and it is as required. -/
def Agree (left right : Evaluation α) (store : Store) (returns : α → Store → Prop)
    (fails : Failure → Store → Prop) : Prop :=
  right.outcome store = left.outcome store ∧
    Meets (fun value => returns value (left.outcome store).2)
      (fun failure => fails failure (left.outcome store).2) (left.outcome store).1

namespace Agree

variable {returns : α → Store → Prop} {fails : Failure → Store → Prop}
  {left right : Evaluation α} {store : Store}

theorem pure {value : α} (allowed : returns value store) :
    Agree (pure value) (pure value) store returns fails :=
  ⟨rfl, allowed⟩

theorem ofExcept {first second : Except Failure α}
    (same : Coincide (returns · store) (fails · store) first second) :
    Agree (ofExcept first) (ofExcept second) store returns fails := by
  rcases same with ⟨same, meets⟩
  subst same
  exact ⟨rfl, by simpa using meets⟩

theorem read {first second : Store → Except Failure α}
    (same : Coincide (returns · store) (fails · store) (first store) (second store)) :
    Agree (Evaluation.read first) (Evaluation.read second) store returns fails := by
  rcases same with ⟨same, meets⟩
  exact ⟨by simp [same], by simpa using meets⟩

/-- The outcome of a first step decides in which store the next one is compared. -/
theorem bind {returnsNext : β → Store → Prop} {nextLeft nextRight : α → Evaluation β}
    (first : Agree left right store returns fails)
    (next : ∀ value middle, returns value middle →
      Agree (nextLeft value) (nextRight value) middle returnsNext fails) :
    Agree (left >>= nextLeft) (right >>= nextRight) store returnsNext fails := by
  rcases first with ⟨same, meets⟩
  rcases reached : left.outcome store with ⟨result, middle⟩
  rw [reached] at same meets
  cases result with
  | error failure =>
      rw [Agree, outcome_bind_error reached, outcome_bind_error same]
      exact ⟨rfl, meets⟩
  | ok value =>
      rw [Agree, outcome_bind_ok reached, outcome_bind_ok same]
      exact next value middle meets

end Agree

/-- From stores that are related, two evaluations have one result up to a change of its value, and
leave stores that are related. -/
def Related (stores : Store → Store → Prop) (change : α → β) (left : Evaluation α)
    (right : Evaluation β) : Prop :=
  ∀ leftStore rightStore : Store, stores leftStore rightStore →
    (right.outcome rightStore).1 = (left.outcome leftStore).1.map change ∧
      stores (left.outcome leftStore).2 (right.outcome rightStore).2

namespace Related

variable {γ δ : Type} {stores : Store → Store → Prop} {change : α → β} {changeNext : γ → δ}
  {left : Evaluation α} {right : Evaluation β}

theorem pure {value : α} {valueRight : β} (same : valueRight = change value) :
    Related stores change (Pure.pure value) (Pure.pure valueRight) := by
  subst same
  exact fun _ _ related => ⟨rfl, related⟩

theorem read {query : Store → Except Failure α} {queryRight : Store → Except Failure β}
    (same : ∀ leftStore rightStore : Store, stores leftStore rightStore →
      queryRight rightStore = (query leftStore).map change) :
    Related stores change (Evaluation.read query) (Evaluation.read queryRight) := by
  intro leftStore rightStore related
  rw [outcome_read, outcome_read]
  exact ⟨same leftStore rightStore related, related⟩

theorem ofExcept {result : Except Failure α} {resultRight : Except Failure β}
    (same : resultRight = result.map change) :
    Related stores change (Evaluation.ofExcept result) (Evaluation.ofExcept resultRight) := by
  intro leftStore rightStore related
  rw [outcome_ofExcept, outcome_ofExcept]
  exact ⟨same, related⟩

theorem bind {next : α → Evaluation γ} {nextRight : β → Evaluation δ}
    (first : Related stores change left right)
    (rest : ∀ value, Related stores changeNext (next value) (nextRight (change value))) :
    Related stores changeNext (left >>= next) (right >>= nextRight) := by
  intro leftStore rightStore related
  rcases first leftStore rightStore related with ⟨sameResult, relatedMiddle⟩
  rcases reached : left.outcome leftStore with ⟨result, middle⟩
  rcases reachedRight : right.outcome rightStore with ⟨resultRight, middleRight⟩
  rw [reached, reachedRight] at sameResult relatedMiddle
  simp only at sameResult relatedMiddle
  subst sameResult
  cases result with
  | error failure =>
      rw [outcome_bind_error reached, outcome_bind_error reachedRight]
      exact ⟨rfl, relatedMiddle⟩
  | ok value =>
      rw [outcome_bind_ok reached, outcome_bind_ok reachedRight]
      exact rest value middle middleRight relatedMiddle

theorem mapM {respell : γ → δ} (items : List γ) {visit : γ → Evaluation α}
    {visitRight : δ → Evaluation β}
    (each : ∀ item ∈ items, Related stores change (visit item) (visitRight (respell item))) :
    Related stores (List.map change) (items.mapM visit) ((items.map respell).mapM visitRight) := by
  induction items with
  | nil => exact .pure rfl
  | cons item items ih =>
      rw [List.forall_mem_cons] at each
      rw [List.map_cons, List.mapM_cons, List.mapM_cons]
      apply bind each.1
      intro value
      apply bind (ih each.2)
      intro values
      exact .pure rfl

end Related

end Evaluation

theorem Interpreter.evaluateExpr_eq_outcome (interpreter : Interpreter) (expr : Expr)
    (store : Store) :
    interpreter.evaluateExpr expr store =
      (expr.eval interpreter.depth interpreter.scope).outcome store := by
  rw [evaluateExpr, Evaluation.outcome]
  cases expr.eval interpreter.depth interpreter.scope store <;> rfl

end ExactLisp
