import ExactLisp.Proofs.Sound

/-!
# Evaluation keeps a store sound

Evaluating an expression in a sound store leaves a sound store, whatever the outcome; a value that
comes out holds known functions only, and a failure is not an internal one. Calls in the worst case
(`Store.guardedCall`) make no difference.
-/

namespace ExactLisp

/-- What becomes of a sound store: changes lead from it to a sound store, and every store on the way
is sound. -/
structure Store.Leads (before after : Store) : Prop where
  sound : after.Sound
  path : Relation.ReflTransGen (fun earlier later => earlier.Passes later ∧ later.Sound) before after

namespace Store.Leads

variable {first second third : Store}

theorem refl (sound : first.Sound) : first.Leads first :=
  ⟨sound, .refl⟩

theorem trans (earlier : first.Leads second) (later : second.Leads third) : first.Leads third :=
  ⟨later.sound, earlier.path.trans later.path⟩

theorem later (leads : first.Leads second) : Store.Later first second :=
  Relation.ReflTransGen.mono (fun _ _ step => step.1) _ _ leads.path

theorem grows (leads : first.Leads second) : first.Grows second :=
  Store.Later.grows leads.later

theorem of_passes (passes : first.Passes second) (sound : second.Sound) : first.Leads second :=
  ⟨sound, .single ⟨passes, sound⟩⟩

theorem of_effect {scope : Scope} (inStore : scope.InStore first) (sound : second.Sound)
    (effect : Store.Effect scope (fun _ => True) (fun _ => True) first second) :
    first.Leads second :=
  of_passes (.effect inStore effect) sound

end Store.Leads

namespace Evaluation

variable {α β : Type}

/-- Two evaluations have one outcome. A value is as required, a failure is not internal, and the
store that is left is sound. -/
def Safe (holds : α → Store → Prop) (left right : Evaluation α) (store : Store) : Prop :=
  Agree left right store (fun value final => holds value final ∧ store.Leads final)
    fun failure final => failure.isInternal = false ∧ store.Leads final

namespace Safe

variable {holds : α → Store → Prop} {holdsNext : β → Store → Prop} {left right : Evaluation α}
  {store : Store}

theorem pure (sound : store.Sound) {value : α} (held : holds value store) :
    Safe holds (Pure.pure value) (Pure.pure value) store :=
  Agree.pure ⟨held, .refl sound⟩

theorem read (sound : store.Sound) {first second : Store → Except Failure α}
    (same : Coincide (holds · store) (fun failure => failure.isInternal = false)
      (first store) (second store)) :
    Safe holds (Evaluation.read first) (Evaluation.read second) store := by
  apply Agree.read
  refine ⟨same.1, same.2.mono ?_ ?_⟩
  · exact fun value held => ⟨held, .refl sound⟩
  · exact fun failure notInternal => ⟨notInternal, .refl sound⟩

theorem ofExcept (sound : store.Sound) {result : Except Failure α}
    (meets : Meets (holds · store) (fun failure => failure.isInternal = false) result) :
    Safe holds (Evaluation.ofExcept result) (Evaluation.ofExcept result) store := by
  apply Agree.ofExcept
  refine ⟨rfl, meets.mono ?_ ?_⟩
  · exact fun value held => ⟨held, .refl sound⟩
  · exact fun failure notInternal => ⟨notInternal, .refl sound⟩

theorem bind {nextLeft nextRight : α → Evaluation β} (first : Safe holds left right store)
    (next : ∀ value middle, holds value middle → store.Leads middle →
      Safe holdsNext (nextLeft value) (nextRight value) middle) :
    Safe holdsNext (left >>= nextLeft) (right >>= nextRight) store := by
  apply Agree.bind first
  rintro value middle ⟨held, leads⟩
  rcases next value middle held leads with ⟨same, meets⟩
  refine ⟨same, meets.mono ?_ ?_⟩
  · rintro final ⟨heldFinal, leadsFinal⟩
    exact ⟨heldFinal, leads.trans leadsFinal⟩
  · rintro failure ⟨notInternal, leadsFinal⟩
    exact ⟨notInternal, leads.trans leadsFinal⟩

theorem mapM {visitLeft visitRight : α → Evaluation Value} (sound : store.Sound) (items : List α)
    (each : ∀ item ∈ items, ∀ middle, store.Leads middle →
      Safe (fun value final => value.Known final) (visitLeft item) (visitRight item) middle) :
    Safe (fun values final => ∀ value ∈ values, value.Known final)
      (items.mapM visitLeft) (items.mapM visitRight) store := by
  induction items generalizing store with
  | nil => exact .pure sound (by simp)
  | cons item items ih =>
      rw [List.mapM_cons, List.mapM_cons]
      apply bind (each item List.mem_cons_self store (.refl sound))
      intro value middle known leads
      have rest := ih leads.sound fun other otherMem later leadsLater =>
        each other (List.mem_cons_of_mem _ otherMem) later (leads.trans leadsLater)
      apply bind rest
      intro values final knownValues leadsFinal
      apply Safe.pure leadsFinal.sound
      rw [List.forall_mem_cons]
      exact ⟨Value.Known.of_grows leadsFinal.grows known, knownValues⟩

/-- What the outcome of the right evaluation is like. -/
theorem right_outcome (safe : Safe holds left right store) :
    store.Leads (right.outcome store).2 ∧
      Meets (holds · (right.outcome store).2) (fun failure => failure.isInternal = false)
        (right.outcome store).1 := by
  rcases safe with ⟨same, meets⟩
  rw [same]
  refine ⟨?_, meets.mono (fun _ held => held.1) fun _ held => held.1⟩
  cases result : (left.outcome store).1 with
  | error failure =>
      rw [result] at meets
      exact meets.2
  | ok value =>
      rw [result] at meets
      exact meets.2

end Safe

end Evaluation

open Evaluation

theorem Evaluation.safe_asFunction {store : Store} (sound : store.Sound) {value : Value}
    (known : value.Known store) :
    Safe (fun callee final => callee.Known final) (ofExcept (orFail (value.asFunction "call")))
      (ofExcept (orFail (value.asFunction "call"))) store := by
  have asFunction := Value.coincide_asFunction
    (fun _ => EvalError.not_internal_of_operational) "call" known
  have meets : Meets (Function.Known store) (fun failure : Failure => failure.isInternal = false)
      (orFail (value.asFunction "call")) := (coincide_orFail asFunction).2
  exact .ofExcept sound meets

theorem Evaluation.safe_define {store : Store} {scope : Scope} (sound : store.Sound)
    (inStore : scope.InStore store) (name : String) {value : Value} (known : value.Known store) :
    Safe (fun value final => value.Known final) (define scope name value)
      (define scope name value) store := by
  refine ⟨rfl, ?_⟩
  rw [outcome_define]
  have soundBind := sound.bind scope.own name known
  have leads := Store.Leads.of_effect inStore soundBind (.define value trivial)
  exact ⟨known.of_grows leads.grows, leads⟩

theorem Evaluation.safe_set {store : Store} {scope : Scope} (sound : store.Sound)
    (inStore : scope.InStore store) (name : String) {value : Value} (known : value.Known store) :
    Safe (fun value final => value.Known final) (Evaluation.set scope name value)
      (Evaluation.set scope name value) store := by
  refine ⟨rfl, ?_⟩
  simp only [outcome, Evaluation.set]
  cases assigned : store.set scope name value with
  | error cause =>
      rw [Store.set] at assigned
      split at assigned
      · cases assigned
      · cases assigned
        exact ⟨rfl, .refl sound⟩
  | ok changed =>
      rcases Store.eq_bind_of_set assigned with ⟨owner, _, _, rfl⟩
      have soundBind := sound.bind owner name known
      have leads := Store.Leads.of_effect inStore soundBind (.assign trivial assigned)
      exact ⟨known.of_grows leads.grows, leads⟩

/-- A body that does not compile is at fault itself: no failure of compilation is internal. -/
theorem Expr.coincide_compile (context : CompileContext) (expr : Expr) :
    Coincide (fun _ => True) (fun cause => cause.isInternal = false) (expr.compile context)
      (expr.compile context) ∧
    Coincide (fun _ => True) (fun cause => cause.isInternal = false) (expr.compileDatum context)
      (expr.compileDatum context) := by
  induction expr with
  | literal value =>
      rw [compile, compileDatum]
      exact ⟨.ok trivial, .ok trivial⟩
  | symbol name =>
      rw [compile, compileDatum]
      exact ⟨.ok trivial, .ok trivial⟩
  | list items ih =>
      constructor
      · cases items with
        | nil =>
            rw [compile]
            exact .ok trivial
        | cons head operands =>
            rw [compile, compileEach_eq_mapM]
            apply (ih head List.mem_cons_self).1.bind
            intro headNode _
            have each := Coincide.mapM operands fun operand operandMem =>
              (ih operand (List.mem_cons_of_mem _ operandMem)).1
            exact each.bind fun nodes _ => .ok trivial
      · rw [compileDatum, compileData_eq_mapM]
        have each := Coincide.mapM items fun item itemMem => (ih item itemMem).2
        exact each.bind fun nodes _ => .ok trivial
  | quote datum ih =>
      rw [compile, compileDatum]
      exact ⟨ih.2, ih.2.bind fun node _ => .ok trivial⟩
  | unquote code ih =>
      rw [compile, compileDatum]
      exact ⟨.error rfl, ih.1⟩
  | sequence forms ih =>
      rw [compile, compileDatum, compileEach_eq_mapM]
      have each := Coincide.mapM forms fun form formMem => (ih form formMem).1
      exact ⟨each.bind fun nodes _ => .ok trivial, .error rfl⟩
  | branch test onTrue onFalse ihTest ihTrue ihFalse =>
      rw [compile, compileDatum]
      refine ⟨?_, .error rfl⟩
      apply ihTest.1.bind
      intro testNode _
      apply ihTrue.1.bind
      intro trueNode _
      exact ihFalse.1.bind fun falseNode _ => .ok trivial
  | define name value _ =>
      rw [compile, compileDatum]
      exact ⟨.error rfl, .error rfl⟩
  | set name value _ =>
      rw [compile, compileDatum]
      exact ⟨.error rfl, .error rfl⟩
  | lambda params body _ =>
      rw [compile, compileDatum]
      exact ⟨.error rfl, .error rfl⟩
  | defun name params body _ =>
      rw [compile, compileDatum]
      exact ⟨.error rfl, .error rfl⟩

theorem Expr.notInternal_of_compile {context : CompileContext} {expr : Expr} {cause : EvalError}
    (failed : expr.compile context = .error cause) : cause.isInternal = false := by
  have meets := (expr.coincide_compile context).1.2
  rw [failed] at meets
  exact meets

theorem Evaluation.safe_makeLambda {store : Store} {scope : Scope} (sound : store.Sound)
    (inStore : scope.InStore store) (params : List String) (body : Expr) :
    Safe (fun value final => value.Known final) (makeLambda scope params body)
      (makeLambda scope params body) store := by
  refine ⟨rfl, ?_⟩
  rcases outcome_makeLambda scope params body store with
    ⟨value, made, reached, done⟩ | ⟨context, cause, failed, reached⟩
  · rw [reached]
    rcases done.sound sound inStore with ⟨soundMade, known⟩
    exact ⟨known, .of_effect inStore soundMade (.lambda done)⟩
  · rw [reached]
    exact ⟨Expr.notInternal_of_compile failed, .refl sound⟩

theorem Evaluation.safe_makeDefun {store : Store} {scope : Scope} (sound : store.Sound)
    (inStore : scope.InStore store) (name : String) (params : List String) (body : Expr) :
    Safe (fun value final => value.Known final) (makeDefun scope name params body)
      (makeDefun scope name params body) store := by
  refine ⟨rfl, ?_⟩
  rcases outcome_makeDefun scope name params body store with
    ⟨value, made, reached, done⟩ | ⟨context, cause, failed, reached⟩
  · rw [reached]
    rcases done.sound sound inStore with ⟨soundMade, known⟩
    exact ⟨known, .of_effect inStore soundMade (.defun trivial done)⟩
  · rw [reached]
    exact ⟨Expr.notInternal_of_compile failed, .refl sound⟩

/-- Evaluation is safe in code position and in data position, if calls are. -/
theorem Expr.evalWith_safe {invokeLeft invokeRight : Store → Function → List Value →
      Except Failure Value}
    (invoke : ∀ store : Store, store.Sound → ∀ callee values, callee.Known store →
      (∀ value ∈ values, value.Known store) →
      store.CoincideCall (invokeLeft store callee values) (invokeRight store callee values))
    {scope : Scope} (expr : Expr) {store : Store} (sound : store.Sound)
    (inStore : scope.InStore store) :
    Safe (fun value final => value.Known final) (expr.evalWith invokeLeft scope)
      (expr.evalWith invokeRight scope) store ∧
    Safe (fun value final => value.Known final) (expr.evalDatum invokeLeft scope)
      (expr.evalDatum invokeRight scope) store := by
  induction expr generalizing store with
  | literal value =>
      rw [evalWith, evalWith, evalDatum, evalDatum]
      exact ⟨.pure sound (by simp), .pure sound (by simp)⟩
  | symbol name =>
      rw [evalWith, evalWith, evalDatum, evalDatum]
      exact ⟨.read sound (sound.coincide_lookup scope name), .pure sound (by simp)⟩
  | list items ih =>
      constructor
      · cases items with
        | nil =>
            rw [evalWith, evalWith]
            exact .pure sound (by simp)
        | cons head operands =>
            rw [evalWith, evalWith, evalEach_eq_mapM, evalEach_eq_mapM]
            apply Safe.bind (ih head List.mem_cons_self sound inStore).1
            intro callee middle known leads
            apply Safe.bind (safe_asFunction leads.sound known)
            intro callee again knownCallee leadsAgain
            have inAgain := leadsAgain.grows.inStore (leads.grows.inStore inStore)
            apply Safe.bind
            · apply Safe.mapM leadsAgain.sound
              intro operand operandMem later leadsLater
              have inLater := leadsLater.grows.inStore inAgain
              exact (ih operand (List.mem_cons_of_mem _ operandMem) leadsLater.sound inLater).1
            · intro values final knownValues leadsFinal
              -- the operands may have changed the store since the callee was found
              apply Safe.read leadsFinal.sound
              exact invoke final leadsFinal.sound callee values
                (knownCallee.of_grows leadsFinal.grows) knownValues
      · rw [evalDatum, evalDatum, evalData_eq_mapM, evalData_eq_mapM]
        apply Safe.bind
        · apply Safe.mapM sound
          intro item itemMem middle leads
          exact (ih item itemMem leads.sound (leads.grows.inStore inStore)).2
        · intro values final known leads
          exact .pure leads.sound (Value.all_list.mpr known)
  | quote datum ih =>
      rw [evalWith, evalWith, evalDatum, evalDatum]
      have safe := (ih sound inStore).2
      refine ⟨safe, safe.bind ?_⟩
      intro value final known leads
      exact .pure leads.sound (Value.all_quoted.mpr known)
  | unquote code ih =>
      rw [evalWith, evalWith, evalDatum, evalDatum]
      exact ⟨.ofExcept sound rfl, (ih sound inStore).1⟩
  | sequence forms ih =>
      rw [evalWith, evalWith, evalDatum, evalDatum, evalEach_eq_mapM, evalEach_eq_mapM]
      refine ⟨?_, .ofExcept sound rfl⟩
      apply Safe.bind
      · apply Safe.mapM sound
        intro form formMem middle leads
        exact (ih form formMem leads.sound (leads.grows.inStore inStore)).1
      · intro values final known leads
        exact .pure leads.sound (Value.all_getLastD known)
  | branch test onTrue onFalse ihTest ihTrue ihFalse =>
      rw [evalWith, evalWith, evalDatum, evalDatum]
      refine ⟨?_, .ofExcept sound rfl⟩
      apply Safe.bind (ihTest sound inStore).1
      intro value middle _ leads
      have inMiddle := leads.grows.inStore inStore
      split
      · exact (ihTrue leads.sound inMiddle).1
      · exact (ihFalse leads.sound inMiddle).1
  | define name value ih =>
      rw [evalWith, evalWith, evalDatum, evalDatum]
      refine ⟨?_, .ofExcept sound rfl⟩
      apply Safe.bind (ih sound inStore).1
      intro result middle known leads
      exact safe_define leads.sound (leads.grows.inStore inStore) name known
  | set name value ih =>
      rw [evalWith, evalWith, evalDatum, evalDatum]
      refine ⟨?_, .ofExcept sound rfl⟩
      apply Safe.bind (ih sound inStore).1
      intro result middle known leads
      exact safe_set leads.sound (leads.grows.inStore inStore) name known
  | lambda params body _ =>
      rw [evalWith, evalWith, evalDatum, evalDatum]
      exact ⟨safe_makeLambda sound inStore params body, .ofExcept sound rfl⟩
  | defun name params body _ =>
      rw [evalWith, evalWith, evalDatum, evalDatum]
      exact ⟨safe_makeDefun sound inStore name params body, .ofExcept sound rfl⟩

/-- Evaluates an expression with calls in the worst case. -/
def Expr.guardedEval (refusal : Failure) (depth : Nat) (scope : Scope) (expr : Expr) :
    Evaluation Value :=
  expr.evalWith (fun store => store.guardedCall refusal depth []) scope

/-- In a sound store, evaluation in the worst case cannot be told from evaluation. -/
theorem Expr.eval_safe (expr : Expr) (refusal : Failure) (depth : Nat) {scope : Scope}
    {store : Store} (sound : store.Sound) (inStore : scope.InStore store) :
    Safe (fun value final => value.Known final) (expr.guardedEval refusal depth scope)
      (expr.eval depth scope) store := by
  refine (expr.evalWith_safe ?_ sound inStore).1
  intro store sound callee values known knownValues
  exact sound.coincide_call refusal depth [] callee values (known.callable []) knownValues

end ExactLisp
