import ExactLisp.Proofs.Sessions
import ExactLisp.Proofs.WellFormed

/-!
# Special forms in quoted data

Quoted data is interpreted twice, by evaluation and by compilation, and both refuse a special form
that stands in it. In a well-formed tree none does, so neither of them ever refuses one
(`Expr.WellFormed.coincide_compile`, `Expr.WellFormed.accepts_eval`). Running a compiled body
refuses nothing as data, whatever the body is.
-/

namespace ExactLisp

/-! ### Calls -/

/-- An error that refuses a special form as data. -/
def EvalError.refusesData : EvalError → Bool
  | notData _ => true
  | _ => false

def Failure.refusesData : Failure → Bool
  | error cause => cause.refusesData
  | outOfDepth => false

theorem EvalError.accepts_of_operational {cause : EvalError} (operational : cause.isOperational) :
    cause.refusesData = false := by
  cases cause <;> simp [isOperational, refusesData] at *

/-- A law that allows everything. -/
def NodeLaw.any : NodeLaw := ⟨fun _ => True, fun _ => True, fun _ => True, fun _ => True⟩

theorem Node.obeys_any (node : Node) : node.Obeys .any := by
  induction node with
  | constant value => exact .constant trivial
  | argument index => exact .argument trivial
  | late scope name => exact .late trivial
  | itself placeholder => exact .itself trivial
  | call head args ihHead ihArgs => exact .call ihHead ihArgs
  | sequence nodes ih => exact .sequence ih
  | branch test onTrue onFalse ihTest ihTrue ihFalse => exact .branch ihTest ihTrue ihFalse
  | quoted node ih => exact .quoted ih
  | list nodes ih => exact .list ih

/-- A result that refuses no special form as data, whatever value it is. -/
def AcceptsData {α : Type} (result : Except Failure α) : Prop :=
  Meets (fun _ => True) (fun failure => failure.refusesData = false) result

theorem AcceptsData.ne_notData {α : Type} {result : Except Failure α} (accepts : AcceptsData result)
    (special : SpecialForm) : result ≠ .error (.error (.notData special)) := by
  rintro rfl
  cases accepts

theorem AcceptsData.coincide {result : Except Failure Value} (accepts : AcceptsData result) :
    Coincide (Value.All fun _ => True) (fun failure => failure.refusesData = false) result result :=
  ⟨rfl, accepts.mono (fun _ _ _ _ => trivial) fun _ => id⟩

/-- No body refuses a special form as data, if no call in it does. -/
theorem Node.acceptsData_eval {store : Store}
    {invoke : Function → List Value → Except Failure Value}
    (accepts : ∀ callee values, AcceptsData (invoke callee values)) (node : Node)
    (args : List Value) : AcceptsData (node.eval store invoke args) := by
  -- nothing is known of the body, so it is compared with itself under the law that allows everything
  have alike : NodeLaw.any.Alike (fun _ => True) (fun failure => failure.refusesData = false) args
      store store invoke invoke := by
    refine ⟨fun _ => EvalError.accepts_of_operational, fun _ _ _ _ => trivial, ?_, ?_, ?_,
      fun callee values _ _ => (accepts callee values).coincide,
      fun placeholder values _ _ => (accepts _ values).coincide⟩
    · intro index _
      refine coincide_orFail ⟨rfl, ?_⟩
      rw [argumentAt]
      split
      · exact fun _ _ => trivial
      · rfl
    · intro scope name _
      refine coincide_orFail ⟨rfl, ?_⟩
      rw [Store.lookup]
      split
      · exact fun _ _ => trivial
      · rfl
    · intro placeholder _
      refine coincide_orFail ⟨rfl, ?_⟩
      rw [Store.resolve]
      split
      · trivial
      · rfl
  exact (node.obeys_any.coincide alike).2.mono (fun _ _ => trivial) fun _ => id

/-- No call refuses a special form as data. -/
theorem Store.acceptsData_call (store : Store) (depth : Nat) (callee : Function)
    (args : List Value) : AcceptsData (store.call depth callee args) := by
  induction depth generalizing callee args with
  | zero => rfl
  | succ depth ih =>
      have runs : ∀ id, AcceptsData (store.runClosure (store.call depth) id args) := by
        intro id
        rw [runClosure]
        split
        · rfl
        · split
          · exact Node.acceptsData_eval ih _ args
          · rfl
      cases callee with
      | builtin builtin =>
          rw [call, runBuiltin]
          split
          · have ran : Coincide (Value.All fun _ => True)
                (fun failure => failure.refusesData = false)
                (builtin.primitive.run store (store.call depth) args)
                (builtin.primitive.run store (store.call depth) args) :=
              Primitive.coincide_run (fun _ => EvalError.accepts_of_operational) (fun _ _ => rfl)
                (fun callee values _ _ => (ih callee values).coincide) builtin.primitive
                fun _ _ _ _ => trivial
            exact ran.2.mono (fun _ _ => trivial) fun _ => id
          · rfl
      | closure id => exact runs id
      | placeholder placeholder =>
          rw [call, resolve]
          split
          · exact runs _
          · rfl

/-! ### Compilation -/

/-- Compiles an expression as what it stands as. -/
def Expr.compileAs (context : CompileContext) (role : Role) (expr : Expr) : Except EvalError Node :=
  match role with
  | .data => expr.compileDatum context
  | .code | .body | .program => expr.compile context

/-- Compiling a well-formed tree refuses no special form as data. -/
theorem Expr.WellFormed.coincide_compile {role : Role} {expr : Expr}
    (wellFormed : expr.WellFormed role) (context : CompileContext) :
    Coincide (fun _ => True) (fun cause => cause.refusesData = false)
      (expr.compileAs context role) (expr.compileAs context role) := by
  induction wellFormed with
  | @literal role _ => cases role <;> exact .ok trivial
  | @symbol role _ _ => cases role <;> exact .ok trivial
  | @quote role _ _ ih =>
      cases role with
      | data =>
          rw [compileAs, compileDatum]
          exact ih.bind fun _ _ => .ok trivial
      | code | body | program => exact ih
  | @unquote role _ _ ih =>
      cases role with
      | data => exact ih
      | code | body | program => exact .error rfl
  | datum _ ih =>
      rw [compileAs, compileDatum, compileData_eq_mapM]
      exact (Coincide.mapM _ ih).bind fun _ _ => .ok trivial
  | @call items _ _ ih =>
      cases items with
      | nil => exact .ok trivial
      | cons head operands =>
          rw [List.forall_mem_cons] at ih
          rw [compileAs, compile, compileEach_eq_mapM]
          apply ih.1.bind
          intro headNode _
          exact (Coincide.mapM _ ih.2).bind fun _ _ => .ok trivial
  | branch _ _ _ ihTest ihTrue ihFalse =>
      rw [compileAs, compile]
      apply ihTest.bind
      intro testNode _
      apply ihTrue.bind
      intro trueNode _
      exact ihFalse.bind fun _ _ => .ok trivial
  | define _ _ _ | set _ _ _ | lambda _ _ _ | defun _ _ _ _ => exact .error rfl
  | single _ ih => exact ih
  | several _ _ ih | program _ ih =>
      rw [compileAs, compile, compileEach_eq_mapM]
      exact (Coincide.mapM _ ih).bind fun _ _ => .ok trivial

/-! ### Evaluation -/

namespace Evaluation

variable {α β : Type}

/-- An evaluation that refuses no special form as data, in whatever store. -/
def Accepts (run : Evaluation α) : Prop :=
  ∀ store, Agree run run store (fun _ _ => True) fun failure _ => failure.refusesData = false

namespace Accepts

theorem pure (value : α) : Accepts (pure value) :=
  fun _ => .pure trivial

theorem ofExcept {result : Except Failure α} (accepts : AcceptsData result) :
    Accepts (ofExcept result) :=
  fun _ => .ofExcept ⟨rfl, accepts⟩

theorem read {query : Store → Except Failure α} (accepts : ∀ store, AcceptsData (query store)) :
    Accepts (read query) :=
  fun store => .read ⟨rfl, accepts store⟩

theorem bind {run : Evaluation α} {next : α → Evaluation β} (first : Accepts run)
    (accepts : ∀ value, Accepts (next value)) : Accepts (run >>= next) :=
  fun store => (first store).bind fun value middle _ => accepts value middle

theorem mapM (items : List α) {visit : α → Evaluation β}
    (each : ∀ item ∈ items, Accepts (visit item)) : Accepts (items.mapM visit) := by
  induction items with
  | nil => exact .pure []
  | cons item items ih =>
      rw [List.forall_mem_cons] at each
      rw [List.mapM_cons]
      apply bind each.1
      intro value
      exact (ih each.2).bind fun values => .pure _

end Accepts

theorem accepts_makeLambda {scope : Scope} {params : List String} {body : Expr}
    (wellFormed : body.WellFormed .body) : Accepts (makeLambda scope params body) := by
  intro store
  refine ⟨rfl, ?_⟩
  have compiled := (wellFormed.coincide_compile ⟨params, none, scope, store⟩).2
  simp only [outcome, makeLambda]
  cases isNode : body.compile ⟨params, none, scope, store⟩ with
  | error cause => exact compiled.of_error isNode
  | ok node => trivial

theorem accepts_makeDefun {scope : Scope} {name : String} {params : List String} {body : Expr}
    (wellFormed : body.WellFormed .body) : Accepts (makeDefun scope name params body) := by
  intro store
  refine ⟨rfl, ?_⟩
  generalize added : store.addPlaceholder name = result
  rcases result with ⟨placeholder, extended⟩
  have compiled :=
    (wellFormed.coincide_compile ⟨params, some placeholder, scope, extended⟩).2
  simp only [outcome, makeDefun, added]
  cases isNode : body.compile ⟨params, some placeholder, scope, extended⟩ with
  | error cause => exact compiled.of_error isNode
  | ok node => trivial

end Evaluation

open Evaluation

/-- Evaluates an expression as what it stands as. -/
def Expr.evalAs (invoke : Store → Function → List Value → Except Failure Value) (scope : Scope)
    (role : Role) (expr : Expr) : Evaluation Value :=
  match role with
  | .data => expr.evalDatum invoke scope
  | .code | .body | .program => expr.evalWith invoke scope

/-- Evaluating a well-formed tree refuses no special form as data. -/
theorem Expr.WellFormed.accepts_eval {role : Role} {expr : Expr} (wellFormed : expr.WellFormed role)
    {invoke : Store → Function → List Value → Except Failure Value}
    (accepts : ∀ store callee values, AcceptsData (invoke store callee values)) (scope : Scope) :
    Accepts (expr.evalAs invoke scope role) := by
  induction wellFormed with
  | @literal role _ => cases role <;> exact .pure _
  | @symbol role name _ =>
      have looksUp : Accepts (Evaluation.read fun store => orFail (store.lookup scope name)) := by
        apply Accepts.read
        intro store
        rw [Store.lookup]
        split
        · trivial
        · rfl
      cases role with
      | data => exact .pure _
      | code | body | program => exact looksUp
  | @quote role _ _ ih =>
      cases role with
      | data =>
          rw [evalAs, evalDatum]
          exact ih.bind fun _ => .pure _
      | code | body | program => exact ih
  | @unquote role _ _ ih =>
      cases role with
      | data => exact ih
      | code | body | program =>
          rw [evalAs, evalWith]
          exact .ofExcept rfl
  | datum _ ih =>
      rw [evalAs, evalDatum, evalData_eq_mapM]
      exact (Accepts.mapM _ ih).bind fun _ => .pure _
  | @call items _ _ ih =>
      cases items with
      | nil => exact .pure _
      | cons head operands =>
          rw [List.forall_mem_cons] at ih
          rw [evalAs, evalWith, evalEach_eq_mapM]
          apply ih.1.bind
          intro value
          have isFunction : Accepts (Evaluation.ofExcept (orFail (value.asFunction "call"))) := by
            apply Accepts.ofExcept
            cases value <;> trivial
          apply isFunction.bind
          intro callee
          apply (Accepts.mapM _ ih.2).bind
          intro values
          exact .read fun store => accepts store callee values
  | branch _ _ _ ihTest ihTrue ihFalse =>
      rw [evalAs, evalWith]
      apply ihTest.bind
      intro value
      split
      · exact ihTrue
      · exact ihFalse
  | define _ _ ih =>
      rw [evalAs, evalWith]
      exact ih.bind fun _ _ => ⟨rfl, trivial⟩
  | set _ _ ih =>
      rw [evalAs, evalWith]
      apply ih.bind
      intro result store
      refine ⟨rfl, ?_⟩
      simp only [outcome, Evaluation.set, Store.set]
      cases store.owner? scope.chain _ with
      | none => rfl
      | some owner => trivial
  | lambda _ wellFormed _ => exact accepts_makeLambda wellFormed
  | defun _ _ wellFormed _ => exact accepts_makeDefun wellFormed
  | single _ ih => exact ih
  | several _ _ ih | program _ ih =>
      rw [evalAs, evalWith, evalEach_eq_mapM]
      exact (Accepts.mapM _ ih).bind fun _ => .pure _

namespace Interpreter

theorem acceptsData_evaluateExpr (interpreter : Interpreter) {role : Role} {expr : Expr}
    (wellFormed : expr.WellFormed role) (isCode : role ≠ .data) (store : Store) :
    AcceptsData (interpreter.evaluateExpr expr store).1 := by
  have accepts := wellFormed.accepts_eval
    (fun store => store.acceptsData_call interpreter.depth) interpreter.scope store
  rw [evaluateExpr_eq_outcome]
  cases role with
  | data => exact absurd rfl isCode
  | code | body | program => exact accepts.2

theorem acceptsData_evaluateExprs (interpreter : Interpreter) {exprs : List Expr}
    (each : ∀ expr ∈ exprs, expr.WellFormed .code) (store : Store) :
    ∀ outcome ∈ (interpreter.evaluateExprs exprs store).1, AcceptsData outcome := by
  induction exprs generalizing store with
  | nil => simp [evaluateExprs]
  | cons expr exprs ih =>
      rw [List.forall_mem_cons] at each
      rw [evaluateExprs, List.forall_mem_cons]
      exact ⟨interpreter.acceptsData_evaluateExpr each.1 (by simp) store, ih each.2 _⟩

end Interpreter

/-- Every tree that a text is read as is well-formed: parameters are distinct symbols, sequences
stand only as programs and as bodies of several forms, quoted data holds no special form up to the
next comma, no call is headed by the name of a special form, and every name is that of a symbol. So
nothing that evaluates a text, or compiles a body of it, or runs a compiled body, refuses a special
form as data. -/
theorem parsed_trees_are_well_formed (source : String) :
    (∀ forms, parseForms source = .ok forms → ∀ form ∈ forms, form.WellFormed .code) ∧
    (∀ program, parseProgram source = .ok program → program.WellFormed .program ∧
      ∃ forms, program = .sequence forms ∧ parseForms source = .ok forms) ∧
    (∀ expr, parseExpression source = .ok expr → expr.WellFormed .code) ∧
    ∀ (interpreter : Interpreter) (store : Store) (special : SpecialForm),
      (interpreter.evaluate source store).1 ≠ .error (.evaluation (.error (.notData special))) ∧
      (interpreter.function source store).1 ≠ .error (.evaluation (.error (.notData special))) ∧
      (∀ outcomes, (interpreter.evaluateEach source store).1 = .ok outcomes →
        .error (.error (.notData special)) ∉ outcomes) ∧
      (∀ expr, parseExpression source = .ok expr →
        (interpreter.evaluateExpr expr store).1 ≠ .error (.error (.notData special)) ∧
        ∀ params, interpreter.compileBody params expr store ≠ .error (.notData special)) ∧
      (∀ callee args, store.call interpreter.depth callee args ≠
        .error (.error (.notData special))) ∧
      ∀ node args, interpreter.runBody node args store ≠ .error (.error (.notData special)) := by
  refine ⟨fun _ => wellFormed_of_parseForms, ?_, fun _ => wellFormed_of_parseExpression, ?_⟩
  · intro program parsed
    rcases map_eq_ok_iff.mp parsed with ⟨forms, areForms, rfl⟩
    exact ⟨wellFormed_of_parseProgram parsed, forms, rfl, areForms⟩
  intro interpreter store special
  have evaluated : (interpreter.evaluate source store).1 ≠
      .error (.evaluation (.error (.notData special))) := by
    rw [Interpreter.evaluate]
    split
    · simp
    · rename_i program parsed
      have accepts := interpreter.acceptsData_evaluateExpr (wellFormed_of_parseProgram parsed)
        (by simp) store
      have notRefused := accepts.ne_notData special
      simp only
      cases result : (interpreter.evaluateExpr program store).1 with
      | ok value => simp [Except.mapError]
      | error failure =>
          rw [result] at notRefused
          simpa [Except.mapError] using notRefused
  have accepts := store.acceptsData_call interpreter.depth
  refine ⟨evaluated, ?_, ?_, ?_, fun callee args => (accepts callee args).ne_notData special, ?_⟩
  · rw [Interpreter.function]
    cases result : (interpreter.evaluate source store).1 with
    | error failure =>
        rw [result] at evaluated
        simpa [result] using evaluated
    | ok value => cases value <;> simp [result]
  · intro outcomes isOutcomes refused
    rw [Interpreter.evaluateEach] at isOutcomes
    split at isOutcomes
    · cases isOutcomes
    · rename_i forms parsed
      cases isOutcomes
      have each := interpreter.acceptsData_evaluateExprs (wellFormed_of_parseForms parsed) store
      exact (each _ refused).ne_notData special rfl
  · intro expr parsed
    have wellFormed := wellFormed_of_parseExpression parsed
    have evaluates := interpreter.acceptsData_evaluateExpr wellFormed (by simp) store
    refine ⟨evaluates.ne_notData special, ?_⟩
    intro params refused
    have compiles := wellFormed.coincide_compile ⟨params, none, interpreter.scope, store⟩
    cases compiles.2.of_error refused
  · intro node args
    exact (Node.acceptsData_eval accepts node args).ne_notData special

theorem quoted_conditional_is_well_formed :
    let source := "(defun f (x y) '(if ,(if x '(define) y) z) y)"
    let body : Expr := .sequence
      [.quote (.list [.symbol "if",
        .unquote (.branch (.symbol "x") (.quote (.list [.symbol "define"])) (.symbol "y")),
        .symbol "z"]), .symbol "y"]
    let tree : Expr := .defun "f" ["x", "y"] body
    let start := Interpreter.create Store.empty
    parseForms source = .ok [tree] ∧ tree.WellFormed .code ∧
    parseProgram source = .ok (.sequence [tree]) ∧ (Expr.sequence [tree]).WellFormed .program ∧
    parseExpression source = .ok tree ∧
    (start.1.evaluateExpr tree start.2).1 ≠ .error (.error (.notData .branch)) ∧
    start.1.compileBody [] tree start.2 ≠ .error (.notData .branch) := by
  intro source body tree start
  have wellFormed := parsed_trees_are_well_formed source
  have isForms : parseForms source = .ok [tree] := by
    dsimp only [source, tree, body]
    rfl
  have isProgram : parseProgram source = .ok (.sequence [tree]) := by
    rw [parseProgram, isForms]
    rfl
  have isSingle : parseExpression source = .ok tree := by
    have isText : parseText .single source.toList = .ok [tree] := by
      dsimp only [source, tree, body]
      rfl
    rw [parseExpression, isText]
    rfl
  have accepted := (wellFormed.2.2.2 start.1 start.2 .branch).2.2.2.1 tree isSingle
  exact ⟨isForms, wellFormed.1 [tree] isForms tree List.mem_cons_self, isProgram,
    (wellFormed.2.1 _ isProgram).1, isSingle, accepted.1, accepted.2 []⟩

end ExactLisp
