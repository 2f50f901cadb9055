import ExactLisp.Proofs.Induction
import ExactLisp.Proofs.Store

/-!
# Which bodies compile

Compilation folds what is known when a function is made, and what is known depends on the scope.
That a body compiles does not: it compiles exactly if every node in it may stand where it stands,
and it fails with the error of the first node that may not, whatever is folded away. `Expr.visits`
lists the nodes in the order in which compilation walks over them. The error of a computation, as an
option, turns the steps of the compiler into a search of that list (`Expr.cause?_compile`).
-/

namespace ExactLisp

/-! ### The error of a computation -/

section Cause

variable {ε α β : Type}

/-- The error of a computation that fails. -/
def cause? : Except ε α → Option ε
  | .ok _ => none
  | .error failure => some failure

theorem cause?_eq_none_iff {result : Except ε α} :
    cause? result = none ↔ ∃ value, result = .ok value := by
  cases result <;> simp [cause?]

theorem cause?_eq_some_iff {result : Except ε α} {failure : ε} :
    cause? result = some failure ↔ result = .error failure := by
  cases result <;> simp [cause?]

/-- If what the next step fails with does not depend on the value before it, the error is that of
the first step that fails. -/
theorem cause?_bind {result : Except ε α} {next : α → Except ε β} {later : Option ε}
    (same : ∀ value, cause? (next value) = later) :
    cause? (result >>= next) = (cause? result).or later := by
  cases result with
  | error failure => rfl
  | ok value => exact same value

theorem cause?_bind_pure (result : Except ε α) (finish : α → β) :
    cause? (result >>= fun value => pure (finish value)) = cause? result := by
  cases result <;> rfl

theorem cause?_mapM {visit : α → Except ε β} {fault? : α → Option ε} {items : List α}
    (each : ∀ item ∈ items, cause? (visit item) = fault? item) :
    cause? (items.mapM visit) = items.findSome? fault? := by
  induction items with
  | nil => rfl
  | cons item items ih =>
      rcases List.forall_mem_cons.mp each with ⟨first, others⟩
      have rest : ∀ value, cause? (do return value :: (← items.mapM visit)) =
          items.findSome? fault? := by
        intro value
        rw [cause?_bind_pure, ih others]
      rw [List.mapM_cons, cause?_bind rest, first, List.findSome?_cons]
      cases fault? item <;> rfl

/-- A computation over a list fails where it first fails on an item. -/
theorem mapM_eq_error_iff {visit : α → Except ε β} {items : List α} {failure : ε} :
    items.mapM visit = .error failure ↔
      ∃ before item after, items = before ++ item :: after ∧ visit item = .error failure ∧
        ∀ earlier ∈ before, ∃ value, visit earlier = .ok value := by
  rw [← cause?_eq_some_iff, cause?_mapM fun _ _ => rfl, List.findSome?_eq_some_iff]
  simp only [cause?_eq_some_iff, cause?_eq_none_iff]

end Cause

/-! ### The nodes of a body -/

/-- How a node is read: below a quote as data, until a comma turns back to code. -/
inductive Reading where
  | code
  | data
  deriving DecidableEq, Repr

/-- Whether a body may hold a node that is read so. -/
def Reading.allows : Reading → Expr → Bool
  | code, .literal _ | code, .symbol _ | code, .list _ | code, .quote _ | code, .sequence _
  | code, .branch .. => true
  | data, .literal _ | data, .symbol _ | data, .list _ | data, .quote _ | data, .unquote _ => true
  | _, _ => false

/-- The error that refuses a special form which is read so. -/
def Reading.refusal : Reading → SpecialForm → EvalError
  | code, .unquote => .unquoteOutsideQuote
  | code, form => .unsupportedForm form
  | data, form => .notData form

/-- A node of an expression, and how it is read. -/
structure Visit where
  reading : Reading
  expr : Expr

/-- The error of a node that may not stand where it stands. -/
def Visit.fault? (visit : Visit) : Option EvalError :=
  if visit.reading.allows visit.expr then none
  else visit.expr.specialForm?.map visit.reading.refusal

theorem Visit.fault?_eq_none_iff {visit : Visit} :
    visit.fault? = none ↔ visit.reading.allows visit.expr := by
  rcases visit with ⟨reading, expr⟩
  cases reading <;> cases expr <;>
    simp [fault?, Reading.allows, Expr.specialForm?]

namespace Expr

mutual

/-- All nodes of an expression, each before its children, and these from left to right. -/
def visits : Reading → Expr → List Visit
  | reading, literal value => [⟨reading, literal value⟩]
  | reading, symbol name => [⟨reading, symbol name⟩]
  | reading, list items => ⟨reading, list items⟩ :: visitsOf reading items
  | reading, quote datum => ⟨reading, quote datum⟩ :: datum.visits .data
  | reading, unquote code => ⟨reading, unquote code⟩ :: code.visits .code
  | reading, sequence forms => ⟨reading, sequence forms⟩ :: visitsOf reading forms
  | reading, branch test onTrue onFalse =>
    ⟨reading, branch test onTrue onFalse⟩ ::
      (test.visits reading ++ onTrue.visits reading ++ onFalse.visits reading)
  | reading, define name value => ⟨reading, define name value⟩ :: value.visits reading
  | reading, set name value => ⟨reading, set name value⟩ :: value.visits reading
  | reading, lambda params body => ⟨reading, lambda params body⟩ :: body.visits reading
  | reading, defun name params body =>
    ⟨reading, defun name params body⟩ :: body.visits reading

def visitsOf : Reading → List Expr → List Visit
  | _, [] => []
  | reading, expr :: exprs => expr.visits reading ++ visitsOf reading exprs

end

/-- The error of the first node of a body that may not stand where it stands. -/
def firstFault? (reading : Reading) (expr : Expr) : Option EvalError :=
  (expr.visits reading).findSome? Visit.fault?

theorem findSome?_visitsOf (reading : Reading) (exprs : List Expr) :
    (visitsOf reading exprs).findSome? Visit.fault? =
      exprs.findSome? (firstFault? reading) := by
  induction exprs with
  | nil => simp [visitsOf]
  | cons expr exprs ih =>
      rw [visitsOf, List.findSome?_append, ih, List.findSome?_cons, ← firstFault?]
      cases firstFault? reading expr <;> rfl

theorem firstFault?_list (reading : Reading) (items : List Expr) :
    (list items).firstFault? reading = items.findSome? (firstFault? reading) := by
  cases reading <;> exact findSome?_visitsOf _ items

theorem firstFault?_quote (reading : Reading) (datum : Expr) :
    (quote datum).firstFault? reading = datum.firstFault? .data := by
  cases reading <;> rfl

theorem firstFault?_unquote (code : Expr) :
    (unquote code).firstFault? .data = code.firstFault? .code := rfl

theorem firstFault?_sequence (forms : List Expr) :
    (sequence forms).firstFault? .code = forms.findSome? (firstFault? .code) :=
  findSome?_visitsOf .code forms

theorem firstFault?_branch (test onTrue onFalse : Expr) :
    (branch test onTrue onFalse).firstFault? .code =
      (test.firstFault? .code).or
        ((onTrue.firstFault? .code).or (onFalse.firstFault? .code)) := by
  change (test.visits .code ++ onTrue.visits .code ++ onFalse.visits .code).findSome? _ = _
  rw [List.append_assoc, List.findSome?_append, List.findSome?_append]
  rfl

/-- The compiler walks over all nodes in order, as code and as data. -/
theorem cause?_compile (context : CompileContext) (expr : Expr) :
    cause? (expr.compile context) = expr.firstFault? .code ∧
    cause? (expr.compileDatum context) = expr.firstFault? .data := by
  induction expr with
  | literal | symbol | define | set | lambda | defun => exact ⟨rfl, rfl⟩
  | list items ih =>
      refine ⟨?_, ?_⟩
      · rw [firstFault?_list]
        cases items with
        | nil => rfl
        | cons head args =>
            rcases List.forall_mem_cons.mp ih with ⟨ihHead, ihArgs⟩
            have rest := cause?_mapM fun arg member => (ihArgs arg member).1
            rw [compile, compileEach_eq_mapM, cause?_bind, ihHead.1, List.findSome?_cons]
            · cases head.firstFault? .code with
              | none => exact rest
              | some cause => rfl
            · intro node
              exact cause?_bind_pure _ _
      · rw [firstFault?_list, compileDatum, compileData_eq_mapM, cause?_bind_pure]
        exact cause?_mapM fun item member => (ih item member).2
  | quote datum ih =>
      refine ⟨?_, ?_⟩
      · rw [firstFault?_quote, compile, ih.2]
      · rw [firstFault?_quote, compileDatum, cause?_bind_pure, ih.2]
  | unquote code ih => exact ⟨rfl, by rw [firstFault?_unquote, compileDatum, ih.1]⟩
  | sequence forms ih =>
      refine ⟨?_, rfl⟩
      rw [firstFault?_sequence, compile, compileEach_eq_mapM, cause?_bind_pure]
      exact cause?_mapM fun form member => (ih form member).1
  | branch test onTrue onFalse ihTest ihTrue ihFalse =>
      refine ⟨?_, rfl⟩
      rw [firstFault?_branch, compile, ← ihTest.1, ← ihTrue.1, ← ihFalse.1]
      -- What the test compiles to selects a branch only after both have been compiled.
      apply cause?_bind
      intro testNode
      apply cause?_bind
      intro trueNode
      exact cause?_bind_pure _ _

/-! ### Bodies that compile -/

/-- Every node of a body may stand where it stands. -/
def Compilable (body : Expr) : Prop :=
  ∀ visit ∈ body.visits .code, visit.reading.allows visit.expr

/-- The first node of a body that may not stand where it stands is refused with this error. -/
def FirstRefused (body : Expr) (cause : EvalError) : Prop :=
  ∃ before visit after, body.visits .code = before ++ visit :: after ∧
    visit.fault? = some cause ∧
    ∀ earlier ∈ before, earlier.reading.allows earlier.expr

theorem compilable_iff {body : Expr} : body.Compilable ↔ body.firstFault? .code = none := by
  simp only [Compilable, firstFault?, List.findSome?_eq_none_iff, Visit.fault?_eq_none_iff]

theorem firstRefused_iff {body : Expr} {cause : EvalError} :
    body.FirstRefused cause ↔ body.firstFault? .code = some cause := by
  simp only [FirstRefused, firstFault?, List.findSome?_eq_some_iff, Visit.fault?_eq_none_iff]

theorem compile_ok_iff {context : CompileContext} {body : Expr} :
    (∃ node, body.compile context = .ok node) ↔ body.Compilable := by
  rw [compilable_iff, ← (cause?_compile context body).1, cause?_eq_none_iff]

theorem compile_error_iff {context : CompileContext} {body : Expr} {cause : EvalError} :
    body.compile context = .error cause ↔ body.FirstRefused cause := by
  rw [firstRefused_iff, ← (cause?_compile context body).1, cause?_eq_some_iff]

theorem FirstRefused.not_compilable {body : Expr} {cause : EvalError}
    (refused : body.FirstRefused cause) : ¬body.Compilable := by
  rw [compilable_iff, firstRefused_iff.mp refused]
  exact Option.some_ne_none cause

theorem FirstRefused.unique {body : Expr} {cause other : EvalError}
    (refused : body.FirstRefused cause) (again : body.FirstRefused other) : cause = other := by
  rw [firstRefused_iff] at refused again
  exact Option.some.inj (refused.symm.trans again)

end Expr

namespace Evaluation

/-- Whether a run succeeds is decided by a body alone, in every store. A run that fails does so with
the error of the first node that is refused, and leaves the store as it was. -/
structure DecidedBy (body : Expr) (run : Evaluation Value) : Prop where
  succeeds_iff : ∀ store,
    (∃ value made, outcome run store = (.ok value, made)) ↔ body.Compilable
  fails_iff : ∀ store failure left, outcome run store = (.error failure, left) ↔
    left = store ∧ ∃ cause, failure = .error cause ∧ body.FirstRefused cause

theorem decidedBy_of_outcome {body : Expr} {run : Evaluation Value}
    (either : ∀ store,
      (∃ value made, outcome run store = (.ok value, made) ∧
        ∃ context node, body.compile context = .ok node) ∨
      ∃ context cause, body.compile context = .error cause ∧
        outcome run store = (.error (.error cause), store)) :
    DecidedBy body run := by
  constructor
  · intro store
    rcases either store with
      ⟨value, made, succeeds, context, compiled⟩ | ⟨context, cause, failed, fails⟩
    · exact ⟨fun _ => Expr.compile_ok_iff.mp compiled, fun _ => ⟨value, made, succeeds⟩⟩
    · have refused := Expr.compile_error_iff.mp failed
      refine ⟨?_, fun compilable => absurd compilable refused.not_compilable⟩
      rintro ⟨value, made, succeeds⟩
      rw [fails] at succeeds
      cases succeeds
  · intro store failure left
    rcases either store with
      ⟨value, made, succeeds, context, compiled⟩ | ⟨context, cause, failed, fails⟩
    · rw [succeeds]
      refine ⟨fun fails => (nomatch fails), ?_⟩
      rintro ⟨_, cause, _, refused⟩
      exact absurd (Expr.compile_ok_iff.mp compiled) refused.not_compilable
    · have refused := Expr.compile_error_iff.mp failed
      rw [fails]
      refine ⟨?_, ?_⟩
      · rintro ⟨rfl, rfl⟩
        exact ⟨rfl, cause, rfl, refused⟩
      · rintro ⟨rfl, other, rfl, again⟩
        rw [refused.unique again]

theorem decidedBy_makeLambda (scope : Scope) (params : List String) (body : Expr) :
    DecidedBy body (makeLambda scope params body) := by
  apply decidedBy_of_outcome
  intro store
  apply (outcome_makeLambda scope params body store).imp_left
  rintro ⟨value, made, succeeds, facts⟩
  rcases facts.compiled with ⟨node, compiled, _⟩
  exact ⟨value, made, succeeds, _, node, compiled⟩

theorem decidedBy_makeDefun (scope : Scope) (name : String) (params : List String) (body : Expr) :
    DecidedBy body (makeDefun scope name params body) := by
  apply decidedBy_of_outcome
  intro store
  apply (outcome_makeDefun scope name params body store).imp_left
  rintro ⟨value, made, succeeds, facts⟩
  rcases facts.compiled with ⟨node, compiled, _⟩
  exact ⟨value, made, succeeds, _, node, compiled⟩

end Evaluation

/-- Whether a body compiles, and the error if it does not, is decided by its nodes alone: it is the
same for all parameters, scopes and stores, and a function that cannot be made leaves no trace. -/
theorem compiling_is_decided_by_syntax (body : Expr) :
    (∀ context, (∃ node, body.compile context = .ok node) ↔ body.Compilable) ∧
    (∀ context cause, body.compile context = .error cause ↔ body.FirstRefused cause) ∧
    (∀ context other, cause? (body.compile context) = cause? (body.compile other)) ∧
    (∀ scope params, Evaluation.DecidedBy body (Evaluation.makeLambda scope params body)) ∧
    ∀ scope name params,
      Evaluation.DecidedBy body (Evaluation.makeDefun scope name params body) := by
  refine ⟨?_, ?_, ?_, ?_, ?_⟩
  · exact fun context => Expr.compile_ok_iff
  · exact fun context cause => Expr.compile_error_iff
  · intro context other
    rw [(body.cause?_compile context).1, (body.cause?_compile other).1]
  · exact fun scope params => Evaluation.decidedBy_makeLambda scope params body
  · exact fun scope name params => Evaluation.decidedBy_makeDefun scope name params body

-- the branch that a constant test drops is refused, and before the one that it keeps
example :
    (Expr.branch (.literal .nil) (.define "x" (.symbol "y"))
      (.quote (.unquote (.unquote (.symbol "z"))))).firstFault? .code =
      some (.unsupportedForm .define) := rfl

end ExactLisp
