import ExactLisp.Proofs.Meaning
import ExactLisp.Proofs.Safe

/-!
# Runs of sessions

A session is reached from the initial one by requests in any order, by programs evaluated alone, by
keeping functions and by changing how deeply calls may nest. Values that are handed in hold known
functions only. Every session that is reached is sound, so no answer is an internal failure, and no
forward reference comes out of a function body.
-/

namespace ExactLisp

open Evaluation

/-! ### Answers -/

/-- The values that an answer shows. -/
def Answer.values : Answer → List Value
  | evaluated (.ok value) => [value]
  | outcome (.ok value) => [value]
  | outcomes (.ok results) => results.filterMap Except.toOption
  | taken (.ok callee) => [.function callee]
  | function callee => [.function callee]
  | _ => []

/-- The failures of evaluation that an answer shows. -/
def Answer.failures : Answer → List Failure
  | evaluated (.error (.evaluation failure)) => [failure]
  | outcome (.error failure) => [failure]
  | outcomes (.ok results) => results.filterMap fun
    | .error failure => some failure
    | .ok _ => none
  | taken (.error (.evaluation failure)) => [failure]
  | _ => []

/-- The values that a request hands in. -/
def Request.values : Request → List Value
  | call _ args => args
  | define _ _ value => [value]
  | set _ _ value => [value]
  | _ => []

/-- A request hands in values of known functions only. -/
def Request.Admissible (store : Store) (request : Request) : Prop :=
  ∀ value ∈ request.values, value.Known store

/-! ### Reachable sessions -/

namespace Session

/-- One step in the life of a session. -/
inductive Step : Session → Session → Prop where
  | perform {session : Session} {request : Request}
      (admissible : request.Admissible session.store) : Step session (session.perform request).2
  | evaluateAlone (session : Session) (source : String) :
      Step session (session.evaluateAlone source).2
  | keep {session : Session} (slot : String) {callee : Function}
      (known : callee.Known session.store) :
      Step session { session with slots := session.slots.insert slot callee }
  | limit {session : Session} {number : Nat} {interpreter : Interpreter} (depth : Nat)
      (found : session.interpreters.get? number = some interpreter) :
      Step session { session with
        interpreters := session.interpreters.insert number { interpreter with depth } }

/-- Sessions that any number of steps lead to. -/
def Reachable (session : Session) : Prop :=
  Relation.ReflTransGen Step initial session

/-- The store is sound, all scopes of interpreters exist, and slots hold known functions. -/
structure Sound (session : Session) : Prop where
  store : session.store.Sound
  scopes : ∀ number interpreter, session.interpreters.get? number = some interpreter →
    interpreter.scope.InStore session.store
  slots : ∀ slot callee, session.slots.get? slot = some callee → callee.Known session.store

theorem initial_sound : initial.Sound := by
  refine ⟨Store.empty_sound, ?_, ?_⟩
  · intro number interpreter found
    simp [initial] at found
  · intro slot callee found
    simp [initial] at found

theorem Sound.of_leads {session : Session} {store : Store} (sound : session.Sound)
    (leads : session.store.Leads store) : ({ session with store } : Session).Sound := by
  refine ⟨leads.sound, ?_, ?_⟩
  · intro number interpreter found
    exact leads.grows.inStore (sound.scopes number interpreter found)
  · intro slot callee found
    exact (sound.slots slot callee found).of_grows leads.grows

end Session

/-! ### Interpreters -/

/-- A name is bound in all global frames or in none, to `pi` or to a primitive operation of that
frame. -/
theorem get?_globalBindings (name : String) :
    (∀ home, (globalBindings home).get? name = none) ∨
    (∀ home, (globalBindings home).get? name = some (.float circleRatio)) ∨
    ∃ primitive : Primitive, ∀ home, (globalBindings home).get? name =
      some (.function (.builtin ⟨home, primitive.name, primitive.arity, primitive⟩)) := by
  let Bound (bindings : FrameId → Bindings) : Prop :=
    (∀ home, (bindings home).get? name = none) ∨
    ∃ primitive : Primitive, ∀ home, (bindings home).get? name =
      some (.function (.builtin ⟨home, primitive.name, primitive.arity, primitive⟩))
  have builtins : ∀ (primitives : List Primitive) (bindings : FrameId → Bindings),
      Bound bindings → Bound fun home => primitives.foldl
        (fun bindings primitive => bindings.insert primitive.name
          (.function (.builtin ⟨home, primitive.name, primitive.arity, primitive⟩)))
        (bindings home) := by
    intro primitives
    induction primitives with
    | nil => exact fun _ bound => bound
    | cons primitive primitives ih =>
        intro bindings bound
        apply ih
        by_cases same : name = primitive.name
        · exact Or.inr ⟨primitive, fun home => by rw [Assoc.get?_insert, if_pos same]⟩
        · simpa only [Bound, Assoc.get?_insert, if_neg same] using bound
  simp only [globalBindings, Assoc.get?_insert]
  by_cases isRatio : name = "pi"
  · exact Or.inr (Or.inl fun _ => if_pos isRatio)
  · simp only [if_neg isRatio]
    rcases builtins Primitive.all (fun _ => .empty) (Or.inl fun _ => rfl) with absent | isBuiltin
    · exact Or.inl absent
    · exact Or.inr (Or.inr isBuiltin)

theorem known_globalBindings (home : FrameId) (store : Store) (name : String) (value : Value)
    (found : (globalBindings home).get? name = some value) : value.Known store := by
  rcases get?_globalBindings name with absent | isRatio | ⟨primitive, isBuiltin⟩
  · cases (absent home).symm.trans found
  · cases (isRatio home).symm.trans found
    exact Value.all_float _
  · cases (isBuiltin home).symm.trans found
    exact Value.all_function.mpr trivial

namespace Store.Sound

variable {store : Store}

theorem leads_addFrame (sound : store.Sound) {bindings : Bindings}
    (known : ∀ name value, bindings.get? name = some value → value.Known store) :
    store.Leads (store.addFrame bindings).2 :=
  .of_passes (.frame store bindings) (sound.addFrame known)

theorem leads_create (sound : store.Sound) :
    store.Leads (Interpreter.create store).2 ∧
      (Interpreter.create store).1.scope.InStore (Interpreter.create store).2 :=
  ⟨sound.leads_addFrame (known_globalBindings _ store), inStore_addFrame _ (by simp)⟩

theorem leads_createEmpty (sound : store.Sound) :
    store.Leads (Interpreter.createEmpty store).2 ∧
      (Interpreter.createEmpty store).1.scope.InStore (Interpreter.createEmpty store).2 :=
  ⟨sound.leads_addFrame (by simp), inStore_addFrame _ (by simp)⟩

theorem leads_createChild (sound : store.Sound) {parent : Interpreter}
    (inStore : parent.scope.InStore store) :
    store.Leads (parent.createChild store).2 ∧
      (parent.createChild store).1.scope.InStore (parent.createChild store).2 :=
  ⟨sound.leads_addFrame (by simp), inStore_addFrame _ inStore⟩

end Store.Sound

/-- An error of an interpreter is internal if the failure that it reports is. -/
def InterpreterError.isInternal : InterpreterError → Bool
  | evaluation failure => failure.isInternal
  | _ => false

/-- A result of evaluation is as it has to be: a value of known functions only, or a failure that is
not internal. -/
abbrev Store.Admits (store : Store) : Except Failure Value → Prop :=
  Meets (Value.Known store) fun failure => failure.isInternal = false

namespace Interpreter

variable {interpreter : Interpreter} {store : Store}

theorem evaluateExpr_leads (sound : store.Sound) (inStore : interpreter.scope.InStore store)
    (expr : Expr) :
    store.Leads (interpreter.evaluateExpr expr store).2 ∧
      (interpreter.evaluateExpr expr store).2.Admits (interpreter.evaluateExpr expr store).1 := by
  rw [evaluateExpr_eq_outcome]
  exact (expr.eval_safe .outOfDepth interpreter.depth sound inStore).right_outcome

theorem evaluateExprs_leads (sound : store.Sound) (inStore : interpreter.scope.InStore store)
    (exprs : List Expr) :
    store.Leads (interpreter.evaluateExprs exprs store).2 ∧
      ∀ result ∈ (interpreter.evaluateExprs exprs store).1,
        (interpreter.evaluateExprs exprs store).2.Admits result := by
  induction exprs generalizing store with
  | nil => exact ⟨.refl sound, by simp [evaluateExprs]⟩
  | cons expr exprs ih =>
      rcases evaluateExpr_leads sound inStore expr with ⟨leads, admits⟩
      rcases ih leads.sound (leads.grows.inStore inStore) with ⟨leadsRest, admitsRest⟩
      refine ⟨leads.trans leadsRest, ?_⟩
      rw [evaluateExprs, List.forall_mem_cons]
      refine ⟨admits.mono ?_ fun _ notInternal => notInternal, admitsRest⟩
      exact fun value known => Value.Known.of_grows leadsRest.grows known

theorem evaluate_leads (sound : store.Sound) (inStore : interpreter.scope.InStore store)
    (source : String) :
    store.Leads (interpreter.evaluate source store).2 ∧
      Meets (Value.Known (interpreter.evaluate source store).2)
        (fun error => error.isInternal = false) (interpreter.evaluate source store).1 := by
  rw [evaluate]
  cases parseProgram source with
  | error error => exact ⟨.refl sound, rfl⟩
  | ok program =>
      rcases evaluateExpr_leads sound inStore program with ⟨leads, admits⟩
      rcases reached : interpreter.evaluateExpr program store with ⟨result, final⟩
      rw [reached] at leads admits
      simp only [reached]
      refine ⟨leads, ?_⟩
      cases result with
      | error failure => exact admits
      | ok value => exact admits

theorem evaluateEach_leads (sound : store.Sound) (inStore : interpreter.scope.InStore store)
    (source : String) :
    store.Leads (interpreter.evaluateEach source store).2 ∧
      Meets (fun results => ∀ result ∈ results,
          (interpreter.evaluateEach source store).2.Admits result)
        (fun _ => True) (interpreter.evaluateEach source store).1 := by
  rw [evaluateEach]
  cases parseForms source with
  | error error => exact ⟨.refl sound, trivial⟩
  | ok forms => exact evaluateExprs_leads sound inStore forms

theorem function_leads (sound : store.Sound) (inStore : interpreter.scope.InStore store)
    (source : String) :
    store.Leads (interpreter.function source store).2 ∧
      Meets (Function.Known (interpreter.function source store).2)
        (fun error => error.isInternal = false) (interpreter.function source store).1 := by
  rcases evaluate_leads sound inStore source with ⟨leads, meets⟩
  rw [function]
  rcases reached : interpreter.evaluate source store with ⟨result, final⟩
  rw [reached] at leads meets
  refine ⟨leads, ?_⟩
  cases result with
  | error error => exact meets
  | ok value =>
      cases value with
      | function callee => exact Value.all_function.mp meets
      | _ => rfl

end Interpreter

/-! ### Answers of sound sessions -/

/-- An answer shows known functions only, and no internal failure. -/
def Answer.Fair (store : Store) (answer : Answer) : Prop :=
  (∀ value ∈ answer.values, value.Known store) ∧
    ∀ failure ∈ answer.failures, failure.isInternal = false

namespace Answer

variable {store : Store}

theorem fair_of_silent {answer : Answer} (noValues : answer.values = [])
    (noFailures : answer.failures = []) : answer.Fair store := by
  simp [Fair, noValues, noFailures]

theorem fair_evaluated {result : Except InterpreterError Value}
    (meets : Meets (Value.Known store) (fun error => error.isInternal = false) result) :
    (evaluated result).Fair store := by
  cases result with
  | ok value => exact ⟨List.forall_mem_singleton.mpr meets, by simp [failures]⟩
  | error error =>
      cases error with
      | evaluation failure => exact ⟨by simp [values], List.forall_mem_singleton.mpr meets⟩
      | _ => exact fair_of_silent rfl rfl

theorem fair_outcome {result : Except Failure Value} (admits : store.Admits result) :
    (outcome result).Fair store := by
  cases result with
  | ok value => exact ⟨List.forall_mem_singleton.mpr admits, by simp [failures]⟩
  | error failure => exact ⟨by simp [values], List.forall_mem_singleton.mpr admits⟩

theorem fair_outcomes {result : Except ParseError (List (Except Failure Value))}
    (meets : Meets (fun results => ∀ result ∈ results, store.Admits result) (fun _ => True)
      result) : (outcomes result).Fair store := by
  cases result with
  | error error => exact fair_of_silent rfl rfl
  | ok results =>
      constructor
      · intro value valueMem
        rcases List.mem_filterMap.mp valueMem with ⟨result, resultMem, shown⟩
        have admits := meets result resultMem
        cases result with
        | ok shownValue =>
            cases shown
            exact admits
        | error failure => cases shown
      · intro failure failureMem
        rcases List.mem_filterMap.mp failureMem with ⟨result, resultMem, shown⟩
        have admits := meets result resultMem
        cases result with
        | ok value => cases shown
        | error shownFailure =>
            cases shown
            exact admits

theorem fair_taken {result : Except InterpreterError Function}
    (meets : Meets (Function.Known store) (fun error => error.isInternal = false) result) :
    (taken result).Fair store := by
  cases result with
  | ok callee =>
      have known : (Value.function callee).Known store := Value.all_function.mpr meets
      exact ⟨List.forall_mem_singleton.mpr known, by simp [failures]⟩
  | error error =>
      cases error with
      | evaluation failure => exact ⟨by simp [values], List.forall_mem_singleton.mpr meets⟩
      | _ => exact fair_of_silent rfl rfl

theorem fair_function {callee : Function} (known : callee.Known store) :
    (function callee).Fair store :=
  ⟨List.forall_mem_singleton.mpr (Value.all_function.mpr known), by simp [failures]⟩

end Answer

namespace Session

/-- What becomes of a session: it is sound, and so is every store on the way. -/
structure Leads (before after : Session) : Prop where
  sound : after.Sound
  store : before.store.Leads after.store

variable {session : Session}

theorem Leads.refl (sound : session.Sound) : session.Leads session :=
  ⟨sound, .refl sound.store⟩

theorem Leads.trans {first second third : Session} (earlier : first.Leads second)
    (later : second.Leads third) : first.Leads third :=
  ⟨later.sound, earlier.store.trans later.store⟩

theorem Leads.act {after : Session} {store : Store} (earlier : session.Leads after)
    (later : after.store.Leads store) : session.Leads { after with store } :=
  ⟨earlier.sound.of_leads later, earlier.store.trans later⟩

theorem Sound.leads_install (sound : session.Sound) (number : Nat) {interpreter : Interpreter}
    {store : Store} (leads : session.store.Leads store)
    (inStore : interpreter.scope.InStore store) :
    session.Leads (session.install number (interpreter, store)) := by
  have soundStore := sound.of_leads leads
  refine ⟨⟨leads.sound, ?_, soundStore.slots⟩, leads⟩
  intro asked shown found
  rw [install, Assoc.get?_insert] at found
  split at found
  · cases found
    exact inStore
  · exact soundStore.scopes asked shown found

theorem Sound.leads_interpreter (sound : session.Sound) (number : Nat) :
    session.Leads (session.interpreter number).2 ∧
      (session.interpreter number).1.scope.InStore (session.interpreter number).2.store := by
  rw [interpreter]
  cases found : session.interpreters.get? number with
  | some interpreter => exact ⟨.refl sound, sound.scopes number interpreter found⟩
  | none =>
      rcases sound.store.leads_create with ⟨leads, inStore⟩
      exact ⟨sound.leads_install number leads inStore, inStore⟩

/-- If an interpreter acts safely in every sound store, a session does. -/
theorem Sound.leads_act {α : Type} (sound : session.Sound) (number : Nat)
    (action : Interpreter → Store → α × Store) (answer : α → Answer)
    (safe : ∀ interpreter store, session.store.Leads store → interpreter.scope.InStore store →
      store.Leads (action interpreter store).2 ∧
        (answer (action interpreter store).1).Fair (action interpreter store).2) :
    session.Leads (session.act number action).2 ∧
      (answer (session.act number action).1).Fair (session.act number action).2.store := by
  rcases sound.leads_interpreter number with ⟨leads, inStore⟩
  rcases safe _ _ leads.store inStore with ⟨leadsAction, fair⟩
  exact ⟨leads.act leadsAction, fair⟩

theorem Sound.fair_withSlot (sound : session.Sound) (slot : String) {answer : Function → Answer}
    (fair : ∀ callee, callee.Known session.store → (answer callee).Fair session.store) :
    (session.withSlot slot answer).Fair session.store := by
  rw [withSlot]
  cases found : session.slots.get? slot with
  | none => exact Answer.fair_of_silent rfl rfl
  | some callee => exact fair callee (sound.slots slot callee found)

theorem Sound.keep (sound : session.Sound) (slot : String) {callee : Function}
    (known : callee.Known session.store) :
    ({ session with slots := session.slots.insert slot callee } : Session).Sound := by
  refine ⟨sound.store, sound.scopes, ?_⟩
  intro asked kept found
  rw [Assoc.get?_insert] at found
  split at found
  · cases found
    exact known
  · exact sound.slots asked kept found

/-- A session stays sound when it carries out a request, and gives a fair answer. -/
theorem Sound.perform (sound : session.Sound) {request : Request}
    (admissible : request.Admissible session.store) :
    session.Leads (session.perform request).2 ∧
      (session.perform request).1.Fair (session.perform request).2.store := by
  cases request with
  | createEmpty number =>
      rcases sound.store.leads_createEmpty with ⟨leads, inStore⟩
      exact ⟨sound.leads_install number leads inStore, Answer.fair_of_silent rfl rfl⟩
  | createChild number parent =>
      rcases sound.leads_interpreter parent with ⟨leads, inStore⟩
      rcases leads.sound.store.leads_createChild inStore with ⟨leadsChild, inChild⟩
      have installed := leads.sound.leads_install number leadsChild inChild
      exact ⟨leads.trans installed, Answer.fair_of_silent rfl rfl⟩
  | evaluate number source =>
      apply sound.leads_act number (·.evaluate source) .evaluated
      intro interpreter store leads inStore
      rcases Interpreter.evaluate_leads leads.sound inStore source with ⟨leadsFinal, meets⟩
      exact ⟨leadsFinal, Answer.fair_evaluated meets⟩
  | evaluateEach number source =>
      apply sound.leads_act number (·.evaluateEach source) .outcomes
      intro interpreter store leads inStore
      rcases Interpreter.evaluateEach_leads leads.sound inStore source with ⟨leadsFinal, meets⟩
      exact ⟨leadsFinal, Answer.fair_outcomes meets⟩
  | evaluateExpr number expr =>
      apply sound.leads_act number (·.evaluateExpr expr) .outcome
      intro interpreter store leads inStore
      rcases Interpreter.evaluateExpr_leads leads.sound inStore expr with ⟨leadsFinal, admits⟩
      exact ⟨leadsFinal, Answer.fair_outcome admits⟩
  | takeFunction number source slot =>
      have taken := sound.leads_act number (·.function source) .taken
      rcases reached : session.act number (·.function source) with ⟨result, final⟩
      rw [reached] at taken
      have safe : session.Leads final ∧ (Answer.taken result).Fair final.store := by
        apply taken
        intro interpreter store leads inStore
        rcases Interpreter.function_leads leads.sound inStore source with ⟨leadsFinal, meets⟩
        exact ⟨leadsFinal, Answer.fair_taken meets⟩
      rcases safe with ⟨leads, fair⟩
      rw [Session.perform, reached]
      cases result with
      | error error => exact ⟨leads, fair⟩
      | ok callee =>
          have known := Value.all_function.mp (fair.1 _ List.mem_cons_self)
          exact ⟨⟨leads.sound.keep slot known, leads.store⟩, fair⟩
  | call slot args =>
      refine ⟨.refl sound, sound.fair_withSlot slot ?_⟩
      intro callee known
      have coincide := sound.store.coincide_call .outOfDepth Interpreter.defaultDepth [] callee args
        (known.callable []) admissible
      exact Answer.fair_outcome coincide.meets_right
  | same first second =>
      refine ⟨.refl sound, sound.fair_withSlot first ?_⟩
      intro f _
      apply sound.fair_withSlot second
      intro g _
      exact Answer.fair_of_silent rfl rfl
  | inspect slot =>
      refine ⟨.refl sound, sound.fair_withSlot slot ?_⟩
      intro callee known
      exact Answer.fair_function known
  | drop slot =>
      refine ⟨⟨⟨sound.store, sound.scopes, ?_⟩, .refl sound.store⟩, Answer.fair_of_silent rfl rfl⟩
      intro asked callee found
      rw [Session.perform, Assoc.get?_erase] at found
      split at found
      · cases found
      · exact sound.slots asked callee found
  | names number =>
      apply sound.leads_act number (fun interpreter store =>
        (store.names interpreter.scope, store)) .names
      intro interpreter store leads inStore
      exact ⟨.refl leads.sound, Answer.fair_of_silent rfl rfl⟩
  | contains number name =>
      apply sound.leads_act number (fun interpreter store =>
        (store.binds interpreter.scope.own name, store)) .truth
      intro interpreter store leads inStore
      exact ⟨.refl leads.sound, Answer.fair_of_silent rfl rfl⟩
  | hasParent number =>
      apply sound.leads_act number (fun interpreter store =>
        (!interpreter.scope.outer.isEmpty, store)) .truth
      intro interpreter store leads inStore
      exact ⟨.refl leads.sound, Answer.fair_of_silent rfl rfl⟩
  | lookup number name =>
      apply sound.leads_act number (fun interpreter store =>
        (orFail (store.lookup interpreter.scope name), store)) .outcome
      intro interpreter store leads inStore
      have coincide := leads.sound.coincide_lookup interpreter.scope name
      exact ⟨.refl leads.sound, Answer.fair_outcome coincide.meets_right⟩
  | lookup? number name =>
      rcases sound.leads_interpreter number with ⟨leads, inStore⟩
      simp only [Session.perform, act]
      cases found : (session.interpreter number).2.store.lookup?
          (session.interpreter number).1.scope name with
      | none => exact ⟨leads, Answer.fair_of_silent rfl rfl⟩
      | some value =>
          have known : value.Known _ := leads.sound.store.known_of_lookup? found
          exact ⟨leads, Answer.fair_outcome known⟩
  | define number name value =>
      apply sound.leads_act number (fun interpreter store =>
        ((), store.define interpreter.scope name value)) fun _ => .outcome (.ok value)
      intro interpreter store leads inStore
      have known : value.Known store :=
        Value.Known.of_grows leads.grows (List.forall_mem_singleton.mp admissible)
      rcases (safe_define leads.sound inStore name known).right_outcome with ⟨leadsFinal, admits⟩
      exact ⟨leadsFinal, Answer.fair_outcome admits⟩
  | set number name value =>
      rcases sound.leads_interpreter number with ⟨leads, inStore⟩
      have known : value.Known (session.interpreter number).2.store :=
        Value.Known.of_grows leads.store.grows (List.forall_mem_singleton.mp admissible)
      have safe := (safe_set leads.sound.store inStore name known).right_outcome
      simp only [outcome, Evaluation.set] at safe
      simp only [Session.perform, act]
      cases assigned : (session.interpreter number).2.store.set
          (session.interpreter number).1.scope name value with
      | error cause =>
          rw [assigned] at safe
          exact ⟨leads.act safe.1, Answer.fair_outcome safe.2⟩
      | ok changed =>
          rw [assigned] at safe
          exact ⟨leads.act safe.1, Answer.fair_outcome safe.2⟩

/-- A session stays sound when a program is evaluated alone. -/
theorem Sound.evaluateAlone (sound : session.Sound) (source : String) :
    session.Leads (session.evaluateAlone source).2 ∧
      Meets (Value.Known (session.evaluateAlone source).2.store)
        (fun error => error.isInternal = false) (session.evaluateAlone source).1 := by
  rcases sound.store.leads_create with ⟨leads, inStore⟩
  rcases Interpreter.evaluate_leads leads.sound inStore source with ⟨leadsFinal, meets⟩
  exact ⟨(Leads.refl sound).act (leads.trans leadsFinal), meets⟩

theorem Step.leads {after : Session} (step : Step session after) (sound : session.Sound) :
    session.Leads after := by
  cases step with
  | perform admissible => exact (sound.perform admissible).1
  | evaluateAlone source => exact (sound.evaluateAlone source).1
  | keep slot known => exact ⟨sound.keep slot known, .refl sound.store⟩
  | @limit number interpreter depth found =>
      have inStore : ({ interpreter with depth } : Interpreter).scope.InStore session.store :=
        sound.scopes number interpreter found
      exact sound.leads_install number (.refl sound.store) inStore

theorem Reachable.sound (reachable : session.Reachable) : session.Sound := by
  induction reachable with
  | refl => exact initial_sound
  | tail _ step ih => exact (step.leads ih).sound

end Session

/-! ### No internal failures -/

/-- Internal failures are unreachable. In every session that is reached, no answer to a request is
one, no program evaluated alone ends in one, and neither does a call of a known function on known
values or the evaluation of an expression, to any depth. Bodies read arguments that their arity
provides, and their forward references are those of their own function. Calls and evaluations do the
same if functions live only while they run, so forward references are resolved in time. -/
theorem internal_failures_are_unreachable (session : Session) (reachable : session.Reachable) :
    (∀ request : Request, request.Admissible session.store →
      ∀ failure ∈ (session.perform request).1.failures, failure.isInternal = false) ∧
    (∀ source failure, (session.evaluateAlone source).1 = .error (.evaluation failure) →
      failure.isInternal = false) ∧
    (∀ depth callee args, callee.Known session.store →
      (∀ arg ∈ args, arg.Known session.store) →
      (∀ failure, session.store.call depth callee args = .error failure →
        failure.isInternal = false) ∧
      ∀ refusal, session.store.guardedCall refusal depth [] callee args =
        session.store.call depth callee args) ∧
    (∀ (expr : Expr) (depth : Nat) (scope : Scope), scope.InStore session.store →
      (∀ failure, ((expr.eval depth scope).outcome session.store).1 = .error failure →
        failure.isInternal = false) ∧
      ∀ refusal, (expr.guardedEval refusal depth scope).outcome session.store =
        (expr.eval depth scope).outcome session.store) ∧
    ∀ id closure, session.store.closure? id = some closure →
      closure.body.Obeys (session.store.bodyLaw id closure.arity) := by
  have sound := reachable.sound
  refine ⟨?_, ?_, ?_, ?_, sound.store.bodies⟩
  · intro request admissible
    exact (sound.perform admissible).2.2
  · intro source failure failed
    exact (sound.evaluateAlone source).2.of_error failed
  · intro depth callee args known knownArgs
    have coincide := fun refusal => sound.store.coincide_call refusal depth [] callee args
      (known.callable []) knownArgs
    refine ⟨?_, fun refusal => (coincide refusal).1.symm⟩
    intro failure failed
    exact (coincide .outOfDepth).meets_right.of_error failed
  · intro expr depth scope inStore
    have safe := fun refusal => expr.eval_safe refusal depth sound.store inStore
    refine ⟨?_, fun refusal => (safe refusal).1.symm⟩
    intro failure failed
    exact (safe .outOfDepth).right_outcome.2.of_error failed

theorem endless_calls_do_not_fail_internally :
    let body : Expr := .list [.symbol "loop", .symbol "x", .symbol "loop"]
    let session := ((Session.initial.perform (.createEmpty 0)).2.perform
      (.evaluateExpr 0 (.defun "loop" ["x", "self"] body))).2
    session.Reachable ∧ ∀ depth refusal,
      session.store.guardedCall refusal depth [] (.closure 0) [.nil, .function (.closure 0)] =
        session.store.call depth (.closure 0) [.nil, .function (.closure 0)] := by
  intro body session
  have reachable : session.Reachable := by
    refine .tail (.tail .refl (.perform ?_)) (.perform ?_)
    · exact List.forall_mem_nil _
    · exact List.forall_mem_nil _
  refine ⟨reachable, ?_⟩
  intro depth refusal
  have known : (Function.closure 0).Known session.store := Nat.zero_lt_one
  have knownArgs : ∀ arg ∈ [Value.nil, .function (.closure 0)], arg.Known session.store := by
    simp only [List.forall_mem_cons]
    exact ⟨Value.all_nil, Value.all_function.mpr known, List.forall_mem_nil _⟩
  have calls := (internal_failures_are_unreachable session reachable).2.2.1
  exact (calls depth (.closure 0) _ known knownArgs).2 refusal

/-! ### No forward references outside bodies -/

/-- No frame holds a forward reference. -/
def Store.Clear (store : Store) : Prop :=
  ∀ id name value, (store.frame id).get? name = some value → value.holdsReference = false

/-- Changes lead from one store to another, and no store on the way holds a forward reference. -/
abbrev Store.ClearLater : Store → Store → Prop :=
  Relation.ReflTransGen fun before after => before.Passes after ∧ after.Clear

/-- A body holds forward references to its own function only, and none in the constants that it uses
as values. -/
def Store.clearLaw (store : Store) (id : ClosureId) : NodeLaw where
  constant value := value.holdsReference = false
  argument _ := True
  late _ := True
  itself placeholder := store.referent? placeholder = some id

theorem Store.Sound.clear {store : Store} (sound : store.Sound) : store.Clear :=
  fun id name value found => (sound.values id name value found).holdsReference_eq

theorem Store.Leads.clearLater {before after : Store} (leads : before.Leads after) :
    before.ClearLater after :=
  Relation.ReflTransGen.mono (fun _ _ step => ⟨step.1, step.2.clear⟩) _ _ leads.path

theorem Store.Sound.body_clear {store : Store} (sound : store.Sound) {id : ClosureId}
    {closure : Closure} (found : store.closure? id = some closure) :
    closure.body.Obeys (store.clearLaw id) := by
  refine (sound.bodies id closure found).mono ?_ ?_ ?_ ?_
  · exact fun value known => Value.Known.holdsReference_eq known
  · exact fun _ _ => trivial
  · exact fun _ _ => trivial
  · exact fun placeholder refers => refers

theorem Store.Sound.lookup?_ne_placeholder {store : Store} (sound : store.Sound) (scope : Scope)
    (name : String) (placeholder : Placeholder) :
    store.lookup? scope name ≠ some (.function (.placeholder placeholder)) := by
  intro found
  exact Value.all_function.mp (sound.known_of_lookup? found)

/-- The forward reference of a function never leaves its body. In every session that is reached,
none is in a frame, in a constant that a body uses as a value, or in a value that a request, a call
or an evaluation returns, and none gets into a frame on the way. Calls and evaluations do the same
if forward references are refused in arguments and results, whatever the refusal is. The body of a
named function reads its own name as the very function that the definition has returned and bound,
whatever happens later. -/
theorem forward_references_never_escape (session : Session) (reachable : session.Reachable) :
    session.store.Clear ∧
    (∀ id closure, session.store.closure? id = some closure →
      closure.body.Obeys (session.store.clearLaw id)) ∧
    (∀ request : Request, request.Admissible session.store →
      (∀ value ∈ (session.perform request).1.values, value.holdsReference = false) ∧
      session.store.ClearLater (session.perform request).2.store) ∧
    (∀ source,
      (∀ value, (session.evaluateAlone source).1 = .ok value → value.holdsReference = false) ∧
      session.store.ClearLater (session.evaluateAlone source).2.store) ∧
    (∀ depth callee args, callee.Known session.store →
      (∀ arg ∈ args, arg.Known session.store) →
      (∀ value, session.store.call depth callee args = .ok value →
        value.holdsReference = false) ∧
      ∀ refusal, session.store.guardedCall refusal depth [] callee args =
        session.store.call depth callee args) ∧
    (∀ (expr : Expr) (depth : Nat) (scope : Scope), scope.InStore session.store →
      (∀ value, ((expr.eval depth scope).outcome session.store).1 = .ok value →
        value.holdsReference = false) ∧
      session.store.ClearLater ((expr.eval depth scope).outcome session.store).2 ∧
      ∀ refusal, (expr.guardedEval refusal depth scope).outcome session.store =
        (expr.eval depth scope).outcome session.store) ∧
    ∀ (scope : Scope) name params body value made, scope.InStore session.store →
      outcome (makeDefun scope name params body) session.store = (.ok value, made) →
      made.lookup? scope name = some value ∧
      ∃ id closure, value = .function (.closure id) ∧
        ∀ later, Store.Later made later →
          let fixed := (session.store.snapshot scope).insert name value
          later.closure? id = some closure ∧
          closure.body.Means body later scope params fixed ∧
          ∀ args, name ∉ params → args.length = params.length →
            let entered := later.enter scope fixed (argumentBindings params args)
            entered.2.lookup? entered.1 name = some value := by
  have sound := reachable.sound
  refine ⟨sound.store.clear, fun _ _ => sound.store.body_clear, ?_, ?_, ?_, ?_, ?_⟩
  · intro request admissible
    rcases sound.perform admissible with ⟨leads, fair⟩
    refine ⟨?_, leads.store.clearLater⟩
    intro value valueMem
    exact (fair.1 value valueMem).holdsReference_eq
  · intro source
    rcases sound.evaluateAlone source with ⟨leads, meets⟩
    refine ⟨?_, leads.store.clearLater⟩
    intro value succeeded
    exact (meets.of_ok succeeded).holdsReference_eq
  · intro depth callee args known knownArgs
    have coincide := fun refusal => sound.store.coincide_call refusal depth [] callee args
      (known.callable []) knownArgs
    refine ⟨?_, fun refusal => (coincide refusal).1.symm⟩
    intro value succeeded
    exact ((coincide .outOfDepth).meets_right.of_ok succeeded).holdsReference_eq
  · intro expr depth scope inStore
    have safe := fun refusal => expr.eval_safe refusal depth sound.store inStore
    rcases (safe .outOfDepth).right_outcome with ⟨leads, meets⟩
    refine ⟨?_, leads.clearLater, fun refusal => (safe refusal).1.symm⟩
    intro value succeeded
    exact (meets.of_ok succeeded).holdsReference_eq
  · intro scope name params body value made inStore succeeded
    rcases outcome_makeDefun scope name params body session.store with
      ⟨value, made, reached, done⟩ | ⟨_, cause, _, failed⟩
    · cases reached.symm.trans succeeded
      have clear := sound.store.lookup?_ne_placeholder scope
      rcases done.means sound.store.grounded inStore clear with ⟨closure, _, means⟩
      refine ⟨done.lookup?_eq inStore, session.store.closures.size, closure, done.value_eq, ?_⟩
      intro later path fixed
      refine ⟨(means later path).1, (means later path).2, ?_⟩
      intro args notParameter count
      have inLater : scope.InStore later := path.grows.inStore (done.grows.inStore inStore)
      exact Store.lookup?_enter_own inLater _ value notParameter count
    · cases failed.symm.trans succeeded

theorem function_that_returns_itself_is_no_forward_reference :
    let session := ((Session.initial.perform (.createEmpty 0)).2.perform
      (.evaluateExpr 0 (.defun "self" [] (.symbol "self")))).2
    session.store.call 1 (.closure 0) [] = .ok (.function (.closure 0)) ∧
      (Value.function (.closure 0)).holdsReference = false ∧
      ∀ refusal, session.store.guardedCall refusal 1 [] (.closure 0) [] =
        .ok (.function (.closure 0)) := by
  intro session
  have reachable : session.Reachable := by
    refine .tail (.tail .refl (.perform ?_)) (.perform ?_)
    · exact List.forall_mem_nil _
    · exact List.forall_mem_nil _
  have known : (Function.closure 0).Known session.store := Nat.zero_lt_one
  have calls := (forward_references_never_escape session reachable).2.2.2.2.1 1 (.closure 0) [] known
    (List.forall_mem_nil _)
  have returned : session.store.call 1 (.closure 0) [] = .ok (.function (.closure 0)) := rfl
  refine ⟨returned, calls.1 _ returned, ?_⟩
  intro refusal
  rw [calls.2 refusal, returned]

end ExactLisp
