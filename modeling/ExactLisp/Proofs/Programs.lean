import ExactLisp.Console
import ExactLisp.Proofs.Outcome

/-!
# Three ways of running a program

A program can be evaluated as a whole, form by form, or form by form on a console. All three visit
the forms in order, each in the store that the form before it left; they differ in what they do
after a failure. `Interpreter.trace` is the run itself, with the result and the store of every form
kept, and each way of running is described by it.
-/

namespace ExactLisp

open Evaluation

/-- One form of a program after its evaluation. -/
structure FormRun where
  result : Except Failure Value
  /-- The store that the form left. -/
  store : Store

namespace FormRun

/-- The form has no value. -/
def failed (run : FormRun) : Bool :=
  !run.result.toBool

/-- What the console shows of a form: its value on the standard output, with as many digits as the
settings ask for, or its failure on the standard error output. -/
def report (config : Config) (run : FormRun) : Output :=
  match run.result with
  | .ok value => .text (value.display run.store config.floatDigits ++ "\n")
  | .error failure => .complaint ("\x1b[1;31merror:\x1b[0m " ++ failure.message ++ "\n")

end FormRun

/-- The store after some forms that were started in `store`. -/
def storeAfter (store : Store) (runs : List FormRun) : Store :=
  (runs.getLast?.map FormRun.store).getD store

/-- The form that decides what a program evaluated as a whole comes to: the first that failed, or
the last one. -/
def decisive (runs : List FormRun) : Option FormRun :=
  (runs.find? FormRun.failed).or runs.getLast?

theorem storeAfter_cons (store : Store) (run : FormRun) (runs : List FormRun) :
    storeAfter store (run :: runs) = storeAfter run.store runs := by
  cases runs with
  | nil => rfl
  | cons next runs => simp [storeAfter, List.getLast?_cons]

namespace Interpreter

variable (interpreter : Interpreter)

/-- Evaluates forms one after the other, whatever becomes of each, and keeps every store. -/
def trace : List Expr → Store → List FormRun
  | [], _ => []
  | form :: forms, store =>
    let (result, after) := interpreter.evaluateExpr form store
    ⟨result, after⟩ :: trace forms after

theorem trace_take (count : Nat) (forms : List Expr) (store : Store) :
    interpreter.trace (forms.take count) store = (interpreter.trace forms store).take count := by
  induction forms generalizing count store with
  | nil => simp [trace]
  | cons form forms ih =>
      cases count with
      | zero => simp [trace]
      | succ count => simp [trace, ih]

theorem evaluateExprs_eq_trace (forms : List Expr) (store : Store) :
    interpreter.evaluateExprs forms store =
      ((interpreter.trace forms store).map FormRun.result,
        storeAfter store (interpreter.trace forms store)) := by
  induction forms generalizing store with
  | nil => rfl
  | cons form forms ih =>
      simp only [evaluateExprs, trace, storeAfter_cons, List.map_cons]
      rw [ih]

theorem ofOutcome_eq_report (config : Config) (result : Except Failure Value) (store : Store) :
    Output.ofOutcome config store result =
      FormRun.report config ⟨result, store⟩ :: if config.showTiming then [.elapsed] else [] := by
  simp only [Output.ofOutcome, FormRun.report]
  cases result with
  | ok value => split <;> rfl
  | error failure => split <;> rfl

theorem runForms_eq_trace (config : Config) (forms : List Expr) (store : Store) :
    interpreter.runForms config forms store =
      ⟨(interpreter.trace forms store).flatMap fun run =>
          run.report config :: if config.showTiming then [.elapsed] else [],
        !(interpreter.trace forms store).any FormRun.failed,
        storeAfter store (interpreter.trace forms store)⟩ := by
  induction forms generalizing store with
  | nil => rfl
  | cons form forms ih =>
      simp only [runForms, runForm, trace, storeAfter_cons, List.flatMap_cons, List.any_cons]
      rw [ih, ofOutcome_eq_report]
      simp [FormRun.failed]

theorem runForms_append (config : Config) (first second : List Expr) (store : Store) :
    interpreter.runForms config (first ++ second) store =
      let before := interpreter.runForms config first store
      let after := interpreter.runForms config second before.store
      ⟨before.outputs ++ after.outputs, before.succeeded && after.succeeded, after.store⟩ := by
  induction first generalizing store with
  | nil => simp [runForms]
  | cons form first ih => simp [runForms, ih, Bool.and_assoc]

/-- A sequence of forms gives all their values, or it stops at the first form that fails. -/
theorem outcome_evalEach (forms : List Expr) (store : Store) :
    (∃ values, (interpreter.trace forms store).map FormRun.result = values.map .ok ∧
      outcome (Expr.evalEach (fun store => store.call interpreter.depth) interpreter.scope forms)
        store = (.ok values, storeAfter store (interpreter.trace forms store))) ∨
    ∃ run failure, (interpreter.trace forms store).find? FormRun.failed = some run ∧
      run.result = .error failure ∧
      outcome (Expr.evalEach (fun store => store.call interpreter.depth) interpreter.scope forms)
        store = (.error failure, run.store) := by
  induction forms generalizing store with
  | nil => exact Or.inl ⟨[], rfl, rfl⟩
  | cons form forms ih =>
      rw [Expr.evalEach]
      rcases reached : interpreter.evaluateExpr form store with ⟨result, after⟩
      have first := reached
      rw [evaluateExpr_eq_outcome, Expr.eval] at first
      simp only [trace, reached]
      cases result with
      | error failure =>
          rw [outcome_bind_error first]
          exact Or.inr ⟨⟨.error failure, after⟩, failure, rfl, rfl, rfl⟩
      | ok value =>
          rw [outcome_bind_ok first, storeAfter_cons]
          rcases ih after with ⟨values, areValues, rest⟩ | ⟨run, failure, found, isFailure, rest⟩
          · refine Or.inl ⟨value :: values, by simp [areValues], ?_⟩
            rw [outcome_bind_ok rest]
            rfl
          · refine Or.inr ⟨run, failure, ?_, isFailure, ?_⟩
            · rw [List.find?_cons_of_neg (by simp [FormRun.failed, Except.toBool]), found]
            · rw [outcome_bind_error rest]

/-- A program as a whole comes to what its decisive form came to, and to `nil` without forms. -/
theorem evaluateExpr_sequence (forms : List Expr) (store : Store) :
    interpreter.evaluateExpr (.sequence forms) store =
      match decisive (interpreter.trace forms store) with
      | some run => (run.result, run.store)
      | none => (.ok .nil, store) := by
  rw [evaluateExpr_eq_outcome, Expr.eval, Expr.evalWith]
  rcases interpreter.outcome_evalEach forms store with
    ⟨values, areValues, reached⟩ | ⟨run, failure, found, isFailure, reached⟩
  · rw [outcome_bind_ok reached, outcome_pure]
    have noneFailed : (interpreter.trace forms store).find? FormRun.failed = none := by
      rw [List.find?_eq_none]
      intro run runMem
      have isOk : run.result ∈ values.map Except.ok := by
        rw [← areValues]
        exact List.mem_map_of_mem runMem
      rcases List.mem_map.mp isOk with ⟨value, _, isValue⟩
      simp [FormRun.failed, ← isValue, Except.toBool]
    have last := congrArg List.getLast? areValues
    simp only [List.getLast?_map] at last
    rw [decisive, noneFailed, Option.none_or, storeAfter, List.getLastD_eq_getLast?]
    cases lastRun : (interpreter.trace forms store).getLast? with
    | none =>
        rw [lastRun, Option.map_none, eq_comm, Option.map_eq_none_iff] at last
        simp [last]
    | some run =>
        rw [lastRun, Option.map_some, eq_comm, Option.map_eq_some_iff] at last
        rcases last with ⟨value, isLast, isValue⟩
        simp [isLast, isValue]
  · rw [outcome_bind_error reached, decisive, found, Option.some_or, ← isFailure]

end Interpreter

/-- The three ways of running a program agree. If it does not parse, each reports that parse error
and leaves the store as it was. Otherwise evaluating each form gives the results of the trace, of
which every beginning is what evaluating the first forms alone gives. Evaluated as a whole, the
program comes to the first failure, or to the last value, and leaves the store of that form. On a
console it shows every result in order and succeeds exactly if no form fails. -/
theorem three_ways_of_running_agree (interpreter : Interpreter) (config : Config) (source : String)
    (store : Store) :
    match parseForms source with
    | .error error =>
      interpreter.evaluate source store = (.error (.parse error), store) ∧
      interpreter.evaluateEach source store = (.error error, store) ∧
      interpreter.runProgram config source store = ⟨[.parseError error], false, store⟩
    | .ok forms =>
      let runs := interpreter.trace forms store
      (interpreter.evaluateEach source store =
        (.ok (runs.map FormRun.result), storeAfter store runs) ∧
        ∀ count, interpreter.evaluateExprs (forms.take count) store =
          ((runs.take count).map FormRun.result, storeAfter store (runs.take count))) ∧
      (interpreter.evaluate source store =
        match decisive runs with
        | some run => (run.result.mapError .evaluation, run.store)
        | none => (.ok .nil, store)) ∧
      (interpreter.runProgram config source store).outputs = (runs.flatMap fun run =>
        run.report config :: if config.showTiming then [.elapsed] else []) ∧
      ((interpreter.runProgram config source store).succeeded = true ↔
        ∀ run ∈ runs, ∃ value, run.result = .ok value) ∧
      (interpreter.runProgram config source store).store = storeAfter store runs := by
  cases parsed : parseForms source with
  | error error =>
      refine ⟨?_, ?_, ?_⟩
      · rw [Interpreter.evaluate, parseProgram, parsed]
        rfl
      · rw [Interpreter.evaluateEach, parsed]
      · rw [Interpreter.runProgram, parsed]
  | ok forms =>
      have onConsole : interpreter.runProgram config source store =
          interpreter.runForms config forms store := by
        rw [Interpreter.runProgram, parsed]
      rw [onConsole, interpreter.runForms_eq_trace]
      refine ⟨⟨?_, ?_⟩, ?_, rfl, ?_, rfl⟩
      · rw [Interpreter.evaluateEach, parsed]
        simp only [interpreter.evaluateExprs_eq_trace]
      · intro count
        rw [interpreter.evaluateExprs_eq_trace, interpreter.trace_take]
      · rw [Interpreter.evaluate, parseProgram, parsed]
        simp only [Except.map, Functor.map, interpreter.evaluateExpr_sequence]
        cases decisive (interpreter.trace forms store) with
        | some run => rfl
        | none => rfl
      · simp only [Bool.not_eq_true', List.any_eq_false, FormRun.failed]
        apply forall_congr'
        intro run
        cases run.result <;> simp [Except.toBool]

theorem later_form_is_run_after_a_failure :
    let source := "x (define a 1)"
    let undefined : Failure := .error (.undefinedSymbol "x")
    let interpreter := (Interpreter.create Store.empty).1
    let store := (Interpreter.create Store.empty).2
    let each := interpreter.evaluateEach source store
    let whole := interpreter.evaluate source store
    let onConsole := interpreter.runProgram {} source store
    (each.1 = .ok [.error undefined, .ok (.integer 1)] ∧
      each.2.lookup? interpreter.scope "a" = some (.integer 1)) ∧
    (whole.1 = .error (.evaluation undefined) ∧
      whole.2.lookup? interpreter.scope "a" = none) ∧
    onConsole.outputs =
      [.complaint "\x1b[1;31merror:\x1b[0m Undefined symbol: x\n", .text "1\n"] ∧
    onConsole.succeeded = false ∧
    onConsole.store = each.2 := by
  intro source undefined interpreter store each whole onConsole
  have agree := three_ways_of_running_agree interpreter {} source store
  have parsed : parseForms "x (define a 1)" =
      .ok [.symbol "x", .define "a" (.literal (.integer 1))] := rfl
  rw [show parseForms source = _ from parsed] at agree
  rcases agree with ⟨⟨isEach, _⟩, isWhole, shown, succeeded, left⟩
  refine ⟨?_, ?_, shown.trans (by decide +kernel), ?_, ?_⟩
  · rw [show each = _ from isEach]
    exact ⟨rfl, rfl⟩
  · rw [show whole = _ from isWhole]
    exact ⟨rfl, rfl⟩
  · rw [← Bool.not_eq_true]
    intro isTrue
    rcases succeeded.mp isTrue _ List.mem_cons_self with ⟨value, isValue⟩
    cases isValue
  · rw [show each = _ from isEach]
    exact left

end ExactLisp
