import ExactLisp.Proofs.HigherOrder

/-!
# Positions of arguments

The bodies of the builtins rely on arities that are declared elsewhere. Here they are run once more
with their arguments taken by position (`Primitive.runAt`): a position where nothing stands leaves
such a run without an answer. A count of arguments that the declared arity accepts rules this out,
for every builtin that a global frame binds (`Primitive.runAt_eq`), and what a body then fails with
is an error of its own kind or comes from the function that it was given (`Primitive.Raises`).
-/

namespace ExactLisp

/-! ### Runs by position -/

/-- A run that takes what it needs by position. It has no answer if nothing stands at a position. -/
abbrev Positional (α : Type) : Type :=
  ExceptT Failure Option α

namespace Positional

/-- What stands at a position. -/
def valueAt {α : Type} (values : List α) (index : Nat) : Positional α :=
  ExceptT.lift values[index]?

/-- What stands from a position on, if the position is not behind the end. -/
def valuesFrom {α : Type} (values : List α) (start : Nat) : Positional (List α) :=
  ExceptT.lift (if start ≤ values.length then some (values.drop start) else none)

/-- A result that is found without positions. -/
def ofResult {α : Type} (result : Except Failure α) : Positional α :=
  ExceptT.mk (some result)

/-- A check of a value that is found without positions. -/
def ofCheck {α : Type} (result : Except EvalError α) : Positional α :=
  ofResult (orFail result)

section Runs

variable {α β : Type}

theorem valueAt_zero (value : α) (values : List α) : valueAt (value :: values) 0 = pure value := rfl

theorem valueAt_one (first second : α) (values : List α) :
    valueAt (first :: second :: values) 1 = pure second := rfl

theorem valuesFrom_one (value : α) (values : List α) :
    valuesFrom (value :: values) 1 = pure values := by
  rw [valuesFrom, if_pos (by simp)]
  rfl

/-- A run that goes on from a result has an answer if what comes after has one. -/
theorem run_ofResult_bind {result : Except Failure α} {next : α → Positional β}
    {rest : α → Except Failure β} (each : ∀ value, (next value).run = some (rest value)) :
    (ofResult result >>= next).run = some (result >>= rest) := by
  cases result with
  | error failure => rfl
  | ok value => exact each value

theorem run_ofCheck_bind {result : Except EvalError α} {next : α → Positional β}
    {rest : α → Except EvalError β}
    (each : ∀ value, (next value).run = some (orFail (rest value))) :
    (ofCheck result >>= next).run = some (orFail (result >>= rest)) := by
  cases result with
  | error cause => rfl
  | ok value => exact each value

end Runs

end Positional

theorem orFail_eq_error_iff {α : Type} {result : Except EvalError α} {failure : Failure} :
    orFail result = .error failure ↔ ∃ cause, result = .error cause ∧ failure = .error cause := by
  cases result with
  | ok value => simp [orFail, Except.mapError]
  | error cause => simp [orFail, Except.mapError, eq_comm]

theorem Value.eq_function_of_asFunction {operation : String} {value : Value} {callee : Function}
    (isCallee : orFail (value.asFunction operation) = .ok callee) : value = .function callee := by
  cases value <;> cases isCallee
  rfl

namespace Primitive

open Positional

/-- The items of a list that has some. -/
def nonEmptyItems (operation : String) : Value → Except EvalError (List Value)
  | .list [] => .error (.emptyList operation)
  | .list items => .ok items
  | other => .error (.typeMismatch operation .nonEmptyList other.kind)

/-- Compares the numbers at the first two positions. -/
def compareAt (operation : String) (accepted : Ordering → Bool) (args : List Value) :
    Positional Value := do
  let a ← ofCheck (Number.ofValue operation (← valueAt args 0))
  let b ← ofCheck (Number.ofValue operation (← valueAt args 1))
  return .boolean (accepted (a.order b))

/-- Runs an operation by positions. A difference of no numbers has no answer either. -/
def runAt (store : Store) (invoke : Function → List Value → Except Failure Value) :
    Primitive → List Value → Positional Value
  | car, args => do
    let items ← ofCheck (nonEmptyItems "car" (← valueAt args 0))
    valueAt items 0
  | cdr, args => do
    let items ← ofCheck (nonEmptyItems "cdr" (← valueAt args 0))
    return .list (← valuesFrom items 1)
  | cons, args => do
    let tail ← ofCheck ((← valueAt args 1).asList "cons")
    return .list ((← valueAt args 0) :: tail)
  | list, args => return .list args
  | length, args => do
    let items ← ofCheck ((← valueAt args 0).asList "length")
    return .integer items.length
  | add, args => do
    let numbers ← ofCheck (Number.ofValues "+" args)
    return (numbers.foldl Number.add (.integer 0)).toValue
  | subtract, args => do
    let numbers ← ofCheck (Number.ofValues "-" args)
    match numbers[0]?, numbers[1]? with
    | some number, none => return number.negate.toValue
    | some minuend, some subtrahend => return (minuend.subtract subtrahend).toValue
    | none, _ => ExceptT.lift none
  | multiply, args => do
    let numbers ← ofCheck (Number.ofValues "*" args)
    return (numbers.foldl Number.multiply (.integer 1)).toValue
  | divide, args => do
    let dividend ← ofCheck (Number.ofValue "/" (← valueAt args 0))
    let divisor ← ofCheck (Number.ofValue "/" (← valueAt args 1))
    let quotient ← ofCheck (dividend.divide divisor)
    return quotient.toValue
  | greater, args => compareAt ">" (· == .gt) args
  | less, args => compareAt "<" (· == .lt) args
  | greaterEqual, args => compareAt ">=" (· != .lt) args
  | lessEqual, args => compareAt "<=" (· != .gt) args
  | numericEqual, args => compareAt "=" (· == .eq) args
  | same, args => return .boolean ((← valueAt args 0).eqv store (← valueAt args 1))
  | equal, args => return .boolean ((← valueAt args 0).equal store (← valueAt args 1))
  | negation, args => return .boolean !(← valueAt args 0).isTruthy
  | conjunction, args => return .boolean (args.all Value.isTruthy)
  | disjunction, args => return .boolean (args.any Value.isTruthy)
  | apply, args => do
    let callee ← ofCheck ((args.head?.getD .nil).asFunction "apply")
    ofResult (invoke callee (splice args.tail))
  | map, args => do
    let callee ← ofCheck ((← valueAt args 0).asFunction "map")
    let lists ← ofCheck ((← valuesFrom args 1).mapM (Value.asList "map"))
    let results ← ofResult ((rows lists).mapM (invoke callee))
    return .list results
  | last, args => return args.getLastD .nil

section Bodies

variable {store : Store} {invoke : Function → List Value → Except Failure Value}

theorem run_compareAt (operation : String) (accepted : Ordering → Bool) (a b : Value) :
    (compareAt operation accepted [a, b]).run =
      some (orFail (compareNumbers operation accepted a b)) := by
  simp only [compareAt, valueAt_zero, valueAt_one, pure_bind]
  apply run_ofCheck_bind
  intro a
  apply run_ofCheck_bind
  intro b
  rfl

theorem exists_of_one {operation : Primitive} {args : List Value}
    (isOne : operation.arity = .fixed 1) (accepted : operation.arity.accepts args.length) :
    ∃ value, args = [value] := by
  simpa [isOne, Arity.accepts, List.length_eq_one_iff] using accepted

theorem exists_of_two {operation : Primitive} {args : List Value}
    (isTwo : operation.arity = .fixed 2) (accepted : operation.arity.accepts args.length) :
    ∃ first second, args = [first, second] := by
  simpa [isTwo, Arity.accepts, List.length_eq_two] using accepted

theorem exists_of_subtract {args : List Value}
    (accepted : subtract.arity.accepts args.length) :
    (∃ number, args = [number]) ∨ ∃ minuend subtrahend, args = [minuend, subtrahend] := by
  rw [← List.length_eq_one_iff, ← List.length_eq_two]
  simp only [arity, Arity.accepts, Bool.and_eq_true, decide_eq_true_eq] at accepted
  omega

theorem exists_of_caller {operation : Primitive} {args : List Value}
    (calls : operation = apply ∨ operation = map) (accepted : operation.arity.accepts args.length) :
    ∃ callee values, args = callee :: values := by
  apply List.exists_cons_of_ne_nil
  rintro rfl
  rcases calls with rfl | rfl <;> simp [arity, Arity.accepts] at accepted

/-- The arity of an operation is what its body needs: run by positions, the body has an answer, and
it is that of the operation. -/
theorem runAt_eq {operation : Primitive} {args : List Value}
    (accepted : operation.arity.accepts args.length) :
    (operation.runAt store invoke args).run = some (operation.run store invoke args) := by
  cases operation with
  | car =>
      rcases exists_of_one rfl accepted with ⟨value, rfl⟩
      cases value with
      | list items => cases items <;> rfl
      | _ => rfl
  | cdr =>
      rcases exists_of_one rfl accepted with ⟨value, rfl⟩
      cases value with
      | list items => cases items <;> rfl
      | _ => rfl
  | cons =>
      rcases exists_of_two rfl accepted with ⟨head, tail, rfl⟩
      simp only [runAt, run, compute, valueAt_zero, valueAt_one, pure_bind, map_eq_pure_bind]
      exact run_ofCheck_bind fun items => rfl
  | list => rfl
  | length =>
      rcases exists_of_one rfl accepted with ⟨value, rfl⟩
      simp only [runAt, run, compute, valueAt_zero, pure_bind, map_eq_pure_bind]
      exact run_ofCheck_bind fun items => rfl
  | add => exact run_ofCheck_bind fun numbers => rfl
  | subtract =>
      simp only [runAt, run]
      rcases exists_of_subtract accepted with ⟨number, rfl⟩ | ⟨minuend, subtrahend, rfl⟩
      · simp only [compute, Number.ofValues, List.mapM_cons, List.mapM_nil]
        cases Number.ofValue "-" number <;> rfl
      · simp only [compute, Number.ofValues, List.mapM_cons, List.mapM_nil]
        cases Number.ofValue "-" minuend <;> cases Number.ofValue "-" subtrahend <;> rfl
  | multiply => exact run_ofCheck_bind fun numbers => rfl
  | divide =>
      rcases exists_of_two rfl accepted with ⟨dividend, divisor, rfl⟩
      simp only [runAt, run, compute, valueAt_zero, valueAt_one, pure_bind]
      apply run_ofCheck_bind
      intro dividend
      apply run_ofCheck_bind
      intro divisor
      exact run_ofCheck_bind fun quotient => rfl
  | greater | less | greaterEqual | lessEqual | numericEqual =>
      rcases exists_of_two rfl accepted with ⟨first, second, rfl⟩
      simp only [runAt, run, compute]
      exact run_compareAt _ _ first second
  | same | equal =>
      rcases exists_of_two rfl accepted with ⟨first, second, rfl⟩
      rfl
  | negation =>
      rcases exists_of_one rfl accepted with ⟨value, rfl⟩
      rfl
  | conjunction | disjunction | last => rfl
  | apply =>
      rcases exists_of_caller (Or.inl rfl) accepted with ⟨callee, values, rfl⟩
      exact run_ofResult_bind fun callee => rfl
  | map =>
      rcases exists_of_caller (Or.inr rfl) accepted with ⟨callee, values, rfl⟩
      simp only [runAt, run, valueAt_zero, valuesFrom_one, pure_bind]
      apply run_ofResult_bind
      intro callee
      apply run_ofResult_bind
      intro lists
      exact run_ofResult_bind fun results => rfl

end Bodies

/-! ### Errors of bodies -/

/-- An operation refuses an argument of the wrong kind, or the empty list where it needs an item. -/
inductive RefusesKind (operation : String) : EvalError → Prop where
  | mismatch (expected : Requirement) (actual : Kind) :
      RefusesKind operation (.typeMismatch operation expected actual)
  | empty : RefusesKind operation (.emptyList operation)

/-- The errors that the body of an operation raises itself. -/
def Raises (operation : Primitive) (cause : EvalError) : Prop :=
  RefusesKind operation.name cause ∨ operation = divide ∧ cause = .divisionByZero

section Errors

variable {operation : String} {value : Value} {cause : EvalError}

theorem RefusesKind.of_asList (failed : value.asList operation = .error cause) :
    RefusesKind operation cause := by
  cases value <;> cases failed
  all_goals exact .mismatch _ _

theorem RefusesKind.of_asNonEmptyList (failed : value.asNonEmptyList operation = .error cause) :
    RefusesKind operation cause := by
  cases value with
  | list items =>
      cases items <;> cases failed
      exact .empty
  | _ =>
      cases failed
      exact .mismatch _ _

theorem RefusesKind.of_asFunction (failed : value.asFunction operation = .error cause) :
    RefusesKind operation cause := by
  cases value <;> cases failed
  all_goals exact .mismatch _ _

theorem RefusesKind.of_ofValue (failed : Number.ofValue operation value = .error cause) :
    RefusesKind operation cause := by
  cases value <;> cases failed
  all_goals exact .mismatch _ _

theorem RefusesKind.of_mapM {α : Type} {visit : Value → Except EvalError α} {values : List Value}
    (each : ∀ {value cause}, visit value = .error cause → RefusesKind operation cause)
    (failed : values.mapM visit = .error cause) : RefusesKind operation cause := by
  rcases mapM_eq_error_iff.mp failed with ⟨_, _, _, _, failedAt, _⟩
  exact each failedAt

theorem RefusesKind.of_compareNumbers {accepted : Ordering → Bool} {a b : Value}
    (failed : compareNumbers operation accepted a b = .error cause) :
    RefusesKind operation cause := by
  rcases bind_eq_error_iff.mp failed with failed | ⟨_, _, failed⟩
  · exact .of_ofValue failed
  · exact .of_ofValue (map_eq_error_iff.mp failed)

theorem raises_of_compute {operation : Primitive} {store : Store} {args : List Value}
    (callsNone : operation ∉ [apply, map]) (accepted : operation.arity.accepts args.length)
    (failed : operation.compute store args = .error cause) : operation.Raises cause := by
  cases operation with
  | car | cdr =>
      rcases exists_of_one rfl accepted with ⟨value, rfl⟩
      exact Or.inl (.of_asNonEmptyList (map_eq_error_iff.mp failed))
  | cons =>
      rcases exists_of_two rfl accepted with ⟨head, tail, rfl⟩
      exact Or.inl (.of_asList (map_eq_error_iff.mp failed))
  | length =>
      rcases exists_of_one rfl accepted with ⟨value, rfl⟩
      exact Or.inl (.of_asList (map_eq_error_iff.mp failed))
  | add | multiply => exact Or.inl (.of_mapM .of_ofValue (map_eq_error_iff.mp failed))
  | subtract =>
      rcases exists_of_subtract accepted with ⟨number, rfl⟩ | ⟨minuend, subtrahend, rfl⟩
      · exact Or.inl (.of_ofValue (map_eq_error_iff.mp failed))
      · rcases bind_eq_error_iff.mp failed with failed | ⟨_, _, failed⟩
        · exact Or.inl (.of_ofValue failed)
        · exact Or.inl (.of_ofValue (map_eq_error_iff.mp failed))
  | divide =>
      rcases exists_of_two rfl accepted with ⟨dividend, divisor, rfl⟩
      rcases bind_eq_error_iff.mp failed with failed | ⟨dividend, _, failed⟩
      · exact Or.inl (.of_ofValue failed)
      · rcases bind_eq_error_iff.mp failed with failed | ⟨divisor, _, failed⟩
        · exact Or.inl (.of_ofValue failed)
        · have divided := map_eq_error_iff.mp failed
          rw [Number.divide] at divided
          split at divided <;> cases divided
          exact Or.inr ⟨rfl, rfl⟩
  | greater | less | greaterEqual | lessEqual | numericEqual =>
      rcases exists_of_two rfl accepted with ⟨first, second, rfl⟩
      rw [compute] at failed
      exact Or.inl (.of_compareNumbers failed)
  | same | equal =>
      rcases exists_of_two rfl accepted with ⟨first, second, rfl⟩
      cases failed
  | negation =>
      rcases exists_of_one rfl accepted with ⟨value, rfl⟩
      cases failed
  | list | conjunction | disjunction | last => cases failed
  | apply | map => simp at callsNone

/-- What an operation fails with, given as many arguments as it takes: with an error that its body
raises, or as a function fails that it was given as its first argument. -/
theorem failure_of_run {operation : Primitive} {store : Store}
    {invoke : Function → List Value → Except Failure Value} {args : List Value} {failure : Failure}
    (accepted : operation.arity.accepts args.length)
    (failed : operation.run store invoke args = .error failure) :
    (∃ cause, failure = .error cause ∧ operation.Raises cause) ∨
      (operation = apply ∨ operation = map) ∧ ∃ callee others values,
        args = .function callee :: others ∧ invoke callee values = .error failure := by
  by_cases calls : operation = apply ∨ operation = map
  · rcases exists_of_caller calls accepted with ⟨value, others, rfl⟩
    rcases calls with rfl | rfl
    · rcases bind_eq_error_iff.mp failed with refused | ⟨callee, isCallee, failed⟩
      · rcases orFail_eq_error_iff.mp refused with ⟨cause, checked, rfl⟩
        exact Or.inl ⟨cause, rfl, Or.inl (.of_asFunction checked)⟩
      · rw [Value.eq_function_of_asFunction isCallee]
        exact Or.inr ⟨Or.inl rfl, callee, others, _, rfl, failed⟩
    · rcases bind_eq_error_iff.mp failed with refused | ⟨callee, isCallee, failed⟩
      · rcases orFail_eq_error_iff.mp refused with ⟨cause, checked, rfl⟩
        exact Or.inl ⟨cause, rfl, Or.inl (.of_asFunction checked)⟩
      · rcases bind_eq_error_iff.mp failed with refused | ⟨lists, _, failed⟩
        · rcases orFail_eq_error_iff.mp refused with ⟨cause, checked, rfl⟩
          exact Or.inl ⟨cause, rfl, Or.inl (.of_mapM .of_asList checked)⟩
        · rcases mapM_eq_error_iff.mp (map_eq_error_iff.mp failed) with
            ⟨_, row, _, _, failedAt, _⟩
          rw [Value.eq_function_of_asFunction isCallee]
          exact Or.inr ⟨Or.inr rfl, callee, others, row, rfl, failedAt⟩
  · have callsNone : operation ∉ [apply, map] := by simpa using calls
    rw [run_eq_compute callsNone] at failed
    rcases orFail_eq_error_iff.mp failed with ⟨cause, raised, rfl⟩
    exact Or.inl ⟨cause, rfl, raises_of_compute callsNone accepted raised⟩

end Errors

end Primitive

/-! ### Bound builtins -/

theorem Primitive.exists_of_globalBindings {home : FrameId} {name : String} {builtin : Builtin}
    (bound : (globalBindings home).get? name = some (.function (.builtin builtin))) :
    ∃ operation : Primitive, name = operation.name ∧ builtin = operation.builtin home := by
  let BindsOperation (bindings : Bindings) : Prop :=
    bindings.get? name = some (.function (.builtin builtin)) →
      ∃ operation : Primitive, name = operation.name ∧ builtin = operation.builtin home
  have folded : ∀ (operations : List Primitive) (bindings : Bindings), BindsOperation bindings →
      BindsOperation (operations.foldl
        (fun bindings operation => bindings.insert operation.name
          (.function (.builtin (operation.builtin home)))) bindings) := by
    intro operations
    induction operations with
    | nil => exact fun _ binds => binds
    | cons operation operations ih =>
        intro bindings binds
        apply ih
        intro found
        rw [Assoc.get?_insert] at found
        by_cases same : name = operation.name
        · rw [if_pos same] at found
          cases found
          exact ⟨operation, same, rfl⟩
        · rw [if_neg same] at found
          exact binds found
  rw [globalBindings, Assoc.get?_insert] at bound
  by_cases isRatio : name = "pi"
  · rw [if_pos isRatio] at bound
    cases bound
  · rw [if_neg isRatio] at bound
    exact folded Primitive.all .empty (fun found => by cases found) bound

/-- A global frame binds a name to a builtin only if the name is that of its operation. -/
theorem Store.exists_of_addGlobal {store : Store} {name : String} {builtin : Builtin}
    (bound : store.addGlobal.2.lookup? store.addGlobal.1 name =
      some (.function (.builtin builtin))) :
    ∃ operation : Primitive, name = operation.name ∧
      builtin = operation.builtin store.frames.size := by
  have isGlobal : store.addGlobal.2.frame store.frames.size =
      globalBindings store.frames.size := by
    rw [addGlobal, addRoot, frame_addFrame, if_pos rfl]
  change [store.frames.size].findSome? (fun id => (store.addGlobal.2.frame id).get? name) = _
    at bound
  rw [List.findSome?_singleton, isGlobal] at bound
  exact Primitive.exists_of_globalBindings bound

/-- A count of arguments that a builtin does not declare is refused whatever the builtin would run,
in its name and words. A count that it declares is enough for its body: no position is taken where
nothing stands, and the only errors are of the kinds that the body raises itself, or those of the
function that `apply` or `map` was given. -/
theorem builtins_take_no_argument_that_is_missing (store : Store) (name : String)
    (builtin : Builtin) (bound : store.addGlobal.2.lookup? store.addGlobal.1 name =
      some (.function (.builtin builtin)))
    (later : Store) (depth : Nat) (args : List Value) :
    let answer := later.call (depth + 1) (.builtin builtin) args
    builtin.name = name ∧
    (builtin.arity.accepts args.length = false →
      answer = .error (.error (.arityMismatch name builtin.arity args.length)) ∧
      ∀ invoke body,
        later.runBuiltin invoke { builtin with primitive := body } args = answer) ∧
    (builtin.arity.accepts args.length = true →
      (builtin.primitive.runAt later (later.call depth) args).run = some answer ∧
      ∀ failure, answer = .error failure →
        (∃ cause, failure = .error cause ∧ builtin.primitive.Raises cause) ∨
        (builtin.primitive = .apply ∨ builtin.primitive = .map) ∧
          ∃ callee others values, args = .function callee :: others ∧
            later.call depth callee values = .error failure) := by
  intro answer
  rcases Store.exists_of_addGlobal bound with ⟨operation, rfl, rfl⟩
  refine ⟨rfl, ?_, ?_⟩
  · intro refused
    have isRefused : ∀ invoke body,
        later.runBuiltin invoke { operation.builtin store.frames.size with primitive := body }
          args = .error (.error (.arityMismatch operation.name operation.arity args.length)) := by
      intro invoke body
      exact if_neg (Bool.eq_false_iff.mp refused)
    refine ⟨isRefused (later.call depth) operation, ?_⟩
    intro invoke body
    exact (isRefused invoke body).trans (isRefused (later.call depth) operation).symm
  · intro accepted
    have runs : answer = operation.run later (later.call depth) args := if_pos accepted
    rw [runs]
    exact ⟨Primitive.runAt_eq accepted, fun failure => Primitive.failure_of_run accepted⟩

/-- A difference of nothing would need a position that is missing. The call ends before that. -/
theorem difference_of_nothing_is_refused :
    let call := fun (operation : Primitive) (args : List Value) =>
      Store.empty.call 2 (.builtin (operation.builtin 0)) args
    let byPosition := fun (operation : Primitive) (args : List Value) =>
      (operation.runAt Store.empty (Store.empty.call 1) args).run
    let quotient := Function.builtin (Primitive.divide.builtin 0)
    let lists : List Value := [.list [.integer 1], .list [.integer 0]]
    (∀ operation : Primitive, Store.empty.addGlobal.2.lookup? Store.empty.addGlobal.1
      operation.name = some (.function (.builtin (operation.builtin 0)))) ∧
    byPosition .subtract [] = none ∧
    call .subtract [] = .error (.error (.arityMismatch "-" (.range 1 2) 0)) ∧
    byPosition .subtract [.integer 2] = some (.ok (.integer (-2))) ∧
    byPosition .car [.list []] = some (.error (.error (.emptyList "car"))) ∧
    byPosition .divide [.integer 1, .integer 0] = some (.error (.error .divisionByZero)) ∧
    call .map (.function quotient :: lists) = .error (.error .divisionByZero) ∧
    ∃ values, Store.empty.call 1 quotient values = .error (.error .divisionByZero) := by
  intro call byPosition quotient lists
  have bound := Store.empty.lookup?_addGlobal
  have safe : ∀ operation : Primitive, _ := fun operation =>
    builtins_take_no_argument_that_is_missing Store.empty operation.name _ (bound operation)
      Store.empty 1
  have passesOn :=
    ((safe .map (.function quotient :: lists)).2.2 rfl).2 (.error .divisionByZero) rfl
  refine ⟨bound, rfl, ((safe .subtract []).2.1 rfl).1, ((safe .subtract [.integer 2]).2.2 rfl).1,
    ((safe .car [.list []]).2.2 rfl).1, ((safe .divide _).2.2 rfl).1, rfl, ?_⟩
  rcases passesOn with ⟨cause, same, raised⟩ | ⟨_, callee, others, values, isArgs, failed⟩
  · cases same
    rcases raised with raised | ⟨isDivide, _⟩
    · cases raised
    · cases isDivide
  · cases isArgs
    exact ⟨values, failed⟩

end ExactLisp
