import ExactLisp.Proofs.Compilation
import ExactLisp.Proofs.Renaming

/-!
# Evaluation under other identities

Bodies are compiled, functions made and names bound in the same way in stores that mirror each
other, and the stores go on to mirror each other. So every evaluation has the same result in both,
with identities renamed (`Expr.mirrored_eval`). What is made in either store is new there, and a
renaming that fits both stores already says what corresponds to it.
-/

namespace ExactLisp

/-! ### Writing -/

namespace Store.Mirrors

variable {aliases : Renaming} {left right : Store}

theorem size_closures (mirrors : left.Mirrors aliases right) :
    right.closures.size = aliases.closure left.closures.size :=
  (mirrors.nextClosure 0).symm

theorem size_cells (mirrors : left.Mirrors aliases right) :
    right.cells.size = aliases.cell left.cells.size :=
  (mirrors.nextCell 0).symm

theorem cell_lt (mirrors : left.Mirrors aliases right) {id : CellId}
    (inStore : id < left.cells.size) : aliases.cell id < right.cells.size := by
  by_contra outside
  -- a cell that the right store makes later comes from one that the left store makes later
  have later := mirrors.nextCell (aliases.cell id - right.cells.size)
  rw [Nat.add_sub_cancel' (Nat.le_of_not_lt outside)] at later
  have same := aliases.cell.injective later
  exact absurd inStore (Nat.not_lt.mpr (same ▸ Nat.le_add_right _ _))

theorem bind (mirrors : left.Mirrors aliases right) (id : FrameId) (name : String)
    (value : Value) :
    (left.bind id name value).Mirrors aliases
      (right.bind (aliases.frame id) name (value.rename aliases)) := by
  refine ⟨?_, mirrors.closures, mirrors.referents, ?_, mirrors.nextClosure, mirrors.nextCell⟩
  · intro asked askedName
    rw [get?_frame_bind, get?_frame_bind, mirrors.frames]
    simp only [EmbeddingLike.apply_eq_iff_eq, mirrors.inFrames]
    split <;> rfl
  · intro asked
    simp only [size_frames_bind]
    exact mirrors.inFrames asked

theorem addClosure (mirrors : left.Mirrors aliases right) (closure : Closure) :
    (left.addClosure closure).2.Mirrors aliases
      (right.addClosure (closure.rename aliases)).2 := by
  refine ⟨mirrors.frames, ?_, mirrors.referents, mirrors.inFrames, ?_, mirrors.nextCell⟩
  · intro asked
    rw [closure?_addClosure, closure?_addClosure, mirrors.closures, mirrors.size_closures]
    simp only [EmbeddingLike.apply_eq_iff_eq]
    split <;> rfl
  · intro count
    have later := mirrors.nextClosure (1 + count)
    simpa [Store.addClosure, Nat.add_assoc] using later

theorem addPlaceholder (mirrors : left.Mirrors aliases right) (name : String) :
    (left.addPlaceholder name).2.Mirrors aliases (right.addPlaceholder name).2 := by
  refine ⟨mirrors.frames, mirrors.closures, ?_, mirrors.inFrames, mirrors.nextClosure, ?_⟩
  · intro placeholder
    rw [referent?_addPlaceholder, referent?_addPlaceholder, mirrors.referents]
  · intro count
    have later := mirrors.nextCell (1 + count)
    simpa [Store.addPlaceholder, Store.addCell, Nat.add_assoc] using later

theorem fill (mirrors : left.Mirrors aliases right) {placeholder : Placeholder}
    (inStore : placeholder.cell < left.cells.size) (id : ClosureId) :
    (left.fill placeholder id).Mirrors aliases
      (right.fill (placeholder.rename aliases) (aliases.closure id)) := by
  have inRight : (placeholder.rename aliases).cell < right.cells.size := mirrors.cell_lt inStore
  refine ⟨mirrors.frames, mirrors.closures, ?_, mirrors.inFrames, mirrors.nextClosure, ?_⟩
  · intro asked
    rw [referent?_fill _ _ _ _ inStore, referent?_fill _ _ _ _ inRight, mirrors.referents]
    simp only [Placeholder.rename, EmbeddingLike.apply_eq_iff_eq]
    split <;> rfl
  · intro count
    simpa [Store.fill] using mirrors.nextCell count

end Store.Mirrors

/-! ### Compilation -/

/-- A context is another one under other identities. -/
structure CompileContext.Mirrors (left : CompileContext) (aliases : Renaming)
    (right : CompileContext) : Prop where
  params : right.params = left.params
  self? : right.self? = left.self?.map (Placeholder.rename aliases)
  scope : right.scope = left.scope.rename aliases
  store : left.store.Mirrors aliases right.store

section Compilation

variable {aliases : Renaming} {left right : CompileContext}

theorem CompileContext.Mirrors.headReference (mirrors : left.Mirrors aliases right)
    (name : String) : right.headReference name = (left.headReference name).rename aliases := by
  have sameSelf : right.selfNamed? name =
      (left.selfNamed? name).map (Placeholder.rename aliases) := by
    simp only [selfNamed?, mirrors.self?]
    cases left.self? with
    | none => rfl
    | some placeholder =>
        simp only [Option.map_some, Option.filter_some, Placeholder.rename]
        split <;> rfl
  have sameOuter : right.outerReference name = (left.outerReference name).rename aliases := by
    simp only [outerReference, mirrors.scope, mirrors.store.lookup?]
    cases left.store.lookup? left.scope name <;> rfl
  have sameParameter : right.parameter? name = left.parameter? name := by
    simp only [parameter?, mirrors.params]
  simp only [CompileContext.headReference, sameParameter, sameSelf, sameOuter]
  cases left.parameter? name with
  | some index => rfl
  | none => cases left.selfNamed? name <;> rfl

theorem CompileContext.Mirrors.valueReference (mirrors : left.Mirrors aliases right)
    (name : String) : right.valueReference name = (left.valueReference name).rename aliases := by
  rw [CompileContext.valueReference, CompileContext.valueReference, mirrors.headReference]
  cases left.headReference name with
  | constant value =>
      cases value with
      | function callee => cases callee <;> rfl
      | _ => rfl
  | _ => rfl

/-- Renaming keeps the shape of bodies. -/
def NodeChange.ofRenaming (aliases : Renaming) : NodeChange where
  node := Node.rename aliases
  value := Value.rename aliases
  constant := fun value => rfl
  constant? := fun node => Node.constant?_rename aliases node
  call := fun head args => by simp [Node.rename]
  sequence := fun nodes => by simp [Node.rename]
  branch := fun test onTrue onFalse => rfl
  quoted := fun node => rfl
  list := fun nodes => by simp [Node.rename]
  ofLiteral := Value.rename_ofLiteral aliases
  symbol := fun name => rfl
  listOf := fun values => by simp [Value.rename]
  isTruthy := Value.isTruthy_rename aliases

/-- A body is compiled to the same body under other identities. -/
theorem Expr.compile_rename (mirrors : left.Mirrors aliases right) (expr : Expr) :
    expr.compile right = (expr.compile left).map (Node.rename aliases) :=
  ((NodeChange.ofRenaming aliases).compile mirrors.headReference mirrors.valueReference expr).1

end Compilation

/-! ### Evaluation -/

namespace Evaluation

variable {α β γ δ : Type} {aliases : Renaming}

/-- In stores that mirror each other, two evaluations have one result under other identities, and
leave stores that mirror each other. -/
def Mirrored (aliases : Renaming) (change : α → β) (left : Evaluation α) (right : Evaluation β) :
    Prop :=
  ∀ leftStore rightStore : Store, leftStore.Mirrors aliases rightStore →
    (right.outcome rightStore).1 = (left.outcome leftStore).1.map change ∧
      (left.outcome leftStore).2.Mirrors aliases (right.outcome rightStore).2

namespace Mirrored

variable {change : α → β} {changeNext : γ → δ} {left : Evaluation α} {right : Evaluation β}

theorem pure {value : α} {valueRight : β} (same : valueRight = change value) :
    Mirrored aliases change (Pure.pure value) (Pure.pure valueRight) :=
  Related.pure same

theorem read {query : Store → Except Failure α} {queryRight : Store → Except Failure β}
    (same : ∀ leftStore rightStore : Store, leftStore.Mirrors aliases rightStore →
      queryRight rightStore = (query leftStore).map change) :
    Mirrored aliases change (Evaluation.read query) (Evaluation.read queryRight) :=
  Related.read same

theorem ofExcept {result : Except Failure α} {resultRight : Except Failure β}
    (same : resultRight = result.map change) :
    Mirrored aliases change (Evaluation.ofExcept result) (Evaluation.ofExcept resultRight) :=
  Related.ofExcept same

theorem bind {next : α → Evaluation γ} {nextRight : β → Evaluation δ}
    (first : Mirrored aliases change left right)
    (rest : ∀ value, Mirrored aliases changeNext (next value) (nextRight (change value))) :
    Mirrored aliases changeNext (left >>= next) (right >>= nextRight) :=
  Related.bind first rest

theorem mapM (items : List γ) {visit : γ → Evaluation α} {visitRight : γ → Evaluation β}
    (each : ∀ item ∈ items, Mirrored aliases change (visit item) (visitRight item)) :
    Mirrored aliases (List.map change) (items.mapM visit) (items.mapM visitRight) := by
  have related := Related.mapM items each
  rwa [List.map_id'] at related

end Mirrored

theorem mirrored_define (scope : Scope) (name : String) (value : Value) :
    Mirrored aliases (Value.rename aliases) (define scope name value)
      (define (scope.rename aliases) name (value.rename aliases)) :=
  fun _ _ mirrors => ⟨rfl, mirrors.bind scope.own name value⟩

theorem mirrored_set (scope : Scope) (name : String) (value : Value) :
    Mirrored aliases (Value.rename aliases) (set scope name value)
      (set (scope.rename aliases) name (value.rename aliases)) := by
  intro leftStore rightStore mirrors
  have sameOwner := mirrors.owner? scope.chain name
  rw [← Scope.chain_rename] at sameOwner
  simp only [outcome, set, Store.set, sameOwner]
  cases leftStore.owner? scope.chain name with
  | none => exact ⟨rfl, mirrors⟩
  | some owner => exact ⟨rfl, mirrors.bind owner name value⟩

theorem mirrored_makeLambda (scope : Scope) (params : List String) (body : Expr) :
    Mirrored aliases (Value.rename aliases) (makeLambda scope params body)
      (makeLambda (scope.rename aliases) params body) := by
  intro leftStore rightStore mirrors
  have contexts : CompileContext.Mirrors ⟨params, none, scope, leftStore⟩ aliases
      ⟨params, none, scope.rename aliases, rightStore⟩ := ⟨rfl, rfl, rfl, mirrors⟩
  simp only [outcome, makeLambda, body.compile_rename contexts]
  cases body.compile ⟨params, none, scope, leftStore⟩ with
  | error cause => exact ⟨rfl, mirrors⟩
  | ok node =>
      refine ⟨?_, mirrors.addClosure _⟩
      simp only [Store.addClosure, mirrors.size_closures]
      rfl

theorem outcome_makeDefun_eq (scope : Scope) (name : String) (params : List String) (body : Expr)
    (store : Store) :
    outcome (makeDefun scope name params body) store =
      match body.compile ⟨params, some ⟨name, store.cells.size⟩, scope,
        (store.addPlaceholder name).2⟩ with
      | .error cause => (.error (.error cause), store)
      | .ok node =>
        (.ok (.function (.closure store.closures.size)),
          (((store.addPlaceholder name).2.addClosure ⟨some name, params.length, node⟩).2.fill
            ⟨name, store.cells.size⟩ store.closures.size).define scope name
              (.function (.closure store.closures.size))) := by
  simp only [outcome, makeDefun, Store.addPlaceholder, Store.addCell, Store.addClosure]
  cases body.compile ⟨params, some ⟨name, store.cells.size⟩, scope,
    ⟨store.frames, store.closures, store.cells.push none⟩⟩ <;> rfl

theorem mirrored_makeDefun (scope : Scope) (name : String) (params : List String) (body : Expr) :
    Mirrored aliases (Value.rename aliases) (makeDefun scope name params body)
      (makeDefun (scope.rename aliases) name params body) := by
  intro leftStore rightStore mirrors
  have extended := mirrors.addPlaceholder name
  have contexts : CompileContext.Mirrors
      ⟨params, some ⟨name, leftStore.cells.size⟩, scope, (leftStore.addPlaceholder name).2⟩ aliases
      ⟨params, some ⟨name, rightStore.cells.size⟩, scope.rename aliases,
        (rightStore.addPlaceholder name).2⟩ := by
    refine ⟨rfl, ?_, rfl, extended⟩
    rw [mirrors.size_cells]
    rfl
  rw [outcome_makeDefun_eq, outcome_makeDefun_eq, body.compile_rename contexts]
  cases body.compile ⟨params, some ⟨name, leftStore.cells.size⟩, scope,
      (leftStore.addPlaceholder name).2⟩ with
  | error cause => exact ⟨rfl, mirrors⟩
  | ok node =>
      have added := extended.addClosure ⟨some name, params.length, node⟩
      have isNew : leftStore.cells.size < (leftStore.addPlaceholder name).2.cells.size := by
        simp [Store.addPlaceholder, Store.addCell]
      have filled := @Store.Mirrors.fill _ _ _ added ⟨name, leftStore.cells.size⟩ isNew
        leftStore.closures.size
      have defined := filled.bind scope.own name (.function (.closure leftStore.closures.size))
      simp only [Except.map, mirrors.size_cells, mirrors.size_closures]
      exact ⟨rfl, defined⟩

end Evaluation

open Evaluation

/-- Evaluation in code position and in data position is the same under other identities. -/
theorem Expr.mirrored_eval (aliases : Renaming) (depth : Nat) (scope : Scope) (expr : Expr) :
    Mirrored aliases (Value.rename aliases)
        (expr.evalWith (fun store => store.call depth) scope)
        (expr.evalWith (fun store => store.call depth) (scope.rename aliases)) ∧
      Mirrored aliases (Value.rename aliases)
        (expr.evalDatum (fun store => store.call depth) scope)
        (expr.evalDatum (fun store => store.call depth) (scope.rename aliases)) := by
  induction expr with
  | literal value =>
      simp only [evalWith, evalDatum]
      exact ⟨.pure (by simp), .pure (by simp)⟩
  | symbol name =>
      simp only [evalWith, evalDatum]
      refine ⟨.read ?_, .pure rfl⟩
      intro leftStore rightStore mirrors
      exact orFail_eq_map (mirrors.lookup scope name)
  | list items ih =>
      constructor
      · cases items with
        | nil =>
            simp only [evalWith]
            exact .pure rfl
        | cons head args =>
            rw [List.forall_mem_cons] at ih
            simp only [evalWith, evalEach_eq_mapM]
            apply Mirrored.bind ih.1.1
            intro callee
            apply Mirrored.bind
              (.ofExcept (orFail_eq_map (callee.asFunction_rename aliases "call")))
            intro callee
            apply Mirrored.bind (.mapM args fun arg argMem => (ih.2 arg argMem).1)
            intro values
            apply Mirrored.read
            intro leftStore rightStore mirrors
            exact mirrors.call depth callee values
      · simp only [evalDatum, evalData_eq_mapM]
        apply Mirrored.bind (.mapM items fun item itemMem => (ih item itemMem).2)
        intro values
        exact .pure (by simp [Value.rename])
  | quote datum ih =>
      simp only [evalWith, evalDatum]
      refine ⟨ih.2, ?_⟩
      apply Mirrored.bind ih.2
      intro value
      exact .pure (by simp)
  | unquote code ih =>
      simp only [evalWith, evalDatum]
      exact ⟨.ofExcept rfl, ih.1⟩
  | sequence forms ih =>
      simp only [evalWith, evalDatum, evalEach_eq_mapM]
      refine ⟨?_, .ofExcept rfl⟩
      apply Mirrored.bind (.mapM forms fun form formMem => (ih form formMem).1)
      intro values
      exact .pure (Value.getLastD_rename aliases values)
  | branch test onTrue onFalse ihTest ihTrue ihFalse =>
      simp only [evalWith, evalDatum]
      refine ⟨?_, .ofExcept rfl⟩
      apply Mirrored.bind ihTest.1
      intro value
      rw [Value.isTruthy_rename]
      split
      · exact ihTrue.1
      · exact ihFalse.1
  | define name value ih =>
      simp only [evalWith, evalDatum]
      refine ⟨?_, .ofExcept rfl⟩
      apply Mirrored.bind ih.1
      intro value
      exact mirrored_define scope name value
  | set name value ih =>
      simp only [evalWith, evalDatum]
      refine ⟨?_, .ofExcept rfl⟩
      apply Mirrored.bind ih.1
      intro value
      exact mirrored_set scope name value
  | lambda params body _ =>
      simp only [evalWith, evalDatum]
      exact ⟨mirrored_makeLambda scope params body, .ofExcept rfl⟩
  | defun name params body _ =>
      simp only [evalWith, evalDatum]
      exact ⟨mirrored_makeDefun scope name params body, .ofExcept rfl⟩

end ExactLisp
