import Mathlib.Logic.Relation
import ExactLisp.Proofs.Induction
import ExactLisp.Proofs.Store
import ExactLisp.Session

/-!
# Effects of evaluation

Evaluating an expression changes the store in four ways only: it binds a name in the own frame of
the scope, it changes a name in the nearest frame that binds it, and it makes functions with and
without a name. `Store.Effect` is one such step. The names that are bound or changed are the targets
of definitions and assignments that stand in the expression outside every function body, because
bodies are compiled and calls do not change the store.

`Expr.evalWith_moves` is the one induction over expressions; what an evaluation preserves is then
shown step by step.
-/

namespace ExactLisp

/-! ### The nodes outside function bodies -/

/-- A node stands in an expression, outside every function body. -/
inductive Expr.HasNode : Expr → Expr → Prop where
  | itself (expr : Expr) : HasNode expr expr
  | item {items : List Expr} {item node : Expr} (itemMem : item ∈ items)
      (inside : HasNode item node) : HasNode (.list items) node
  | datum {datum node : Expr} (inside : HasNode datum node) : HasNode (.quote datum) node
  | code {code node : Expr} (inside : HasNode code node) : HasNode (.unquote code) node
  | form {forms : List Expr} {form node : Expr} (formMem : form ∈ forms)
      (inside : HasNode form node) : HasNode (.sequence forms) node
  | test {test onTrue onFalse node : Expr} (inside : HasNode test node) :
      HasNode (.branch test onTrue onFalse) node
  | onTrue {test onTrue onFalse node : Expr} (inside : HasNode onTrue node) :
      HasNode (.branch test onTrue onFalse) node
  | onFalse {test onTrue onFalse node : Expr} (inside : HasNode onFalse node) :
      HasNode (.branch test onTrue onFalse) node
  | defined {name : String} {value node : Expr} (inside : HasNode value node) :
      HasNode (.define name value) node
  | assigned {name : String} {value node : Expr} (inside : HasNode value node) :
      HasNode (.set name value) node

/-- A name is the target of a definition outside every function body. -/
def Expr.Defines (expr : Expr) (name : String) : Prop :=
  (∃ value, expr.HasNode (.define name value)) ∨
    ∃ params body, expr.HasNode (.defun name params body)

/-- A name is the target of an assignment outside every function body. -/
def Expr.Assigns (expr : Expr) (name : String) : Prop :=
  ∃ value, expr.HasNode (.set name value)

/-! ### One step -/

/-- One change of a store by evaluation in a scope. The names that may be bound and those that may
be assigned are given. -/
inductive Store.Effect (scope : Scope) (defines assigns : String → Prop) :
    Store → Store → Prop where
  | define {store : Store} {name : String} (value : Value) (target : defines name) :
      Effect scope defines assigns store (store.define scope name value)
  | assign {store changed : Store} {name : String} {value : Value} (target : assigns name)
      (bound : store.set scope name value = .ok changed) :
      Effect scope defines assigns store changed
  | lambda {store made : Store} {params : List String} {body : Expr} {value : Value}
      (done : LambdaMade scope params body store value made) :
      Effect scope defines assigns store made
  | defun {store made : Store} {name : String} {params : List String} {body : Expr}
      {value : Value} (target : defines name)
      (done : DefunMade scope name params body store value made) :
      Effect scope defines assigns store made

namespace Store

/-- What changes only by growing: frames, functions and filled cells stay. -/
structure Grows (before after : Store) : Prop where
  frames : before.frames.size ≤ after.frames.size
  closures : ∀ id closure, before.closure? id = some closure → after.closure? id = some closure
  cells : ∀ placeholder id, before.referent? placeholder = some id →
    after.referent? placeholder = some id

theorem Grows.refl (store : Store) : store.Grows store :=
  ⟨Nat.le_refl _, fun _ _ found => found, fun _ _ found => found⟩

theorem Grows.trans {first second third : Store} (earlier : first.Grows second)
    (later : second.Grows third) : first.Grows third := by
  refine ⟨Nat.le_trans earlier.frames later.frames, ?_, ?_⟩
  · intro id closure found
    exact later.closures id closure (earlier.closures id closure found)
  · intro placeholder id found
    exact later.cells placeholder id (earlier.cells placeholder id found)

theorem Grows.size_closures_le {before after : Store} (grows : before.Grows after) :
    before.closures.size ≤ after.closures.size := by
  apply Nat.le_of_not_lt
  intro fewer
  have isThere := (closure?_isSome_iff before after.closures.size).mpr fewer
  rcases Option.isSome_iff_exists.mp isThere with ⟨closure, found⟩
  have stillThere := grows.closures _ _ found
  have absent := (closure?_isSome_iff after after.closures.size).mp (by rw [stillThere]; rfl)
  exact Nat.lt_irrefl _ absent

theorem Grows.inStore {before after : Store} (grows : before.Grows after) {scope : Scope}
    (inStore : scope.InStore before) : scope.InStore after :=
  fun id idMem => Nat.lt_of_lt_of_le (inStore id idMem) grows.frames

theorem grows_addFrame (store : Store) (bindings : Bindings) :
    store.Grows (store.addFrame bindings).2 :=
  ⟨by simp, fun _ _ found => found, fun _ _ found => found⟩

theorem grows_bind (store : Store) (id : FrameId) (name : String) (value : Value) :
    store.Grows (store.bind id name value) :=
  ⟨by simp, fun _ _ found => found, fun _ _ found => found⟩

end Store

theorem LambdaMade.grows {scope : Scope} {params : List String} {body : Expr}
    {store made : Store} {value : Value} (done : LambdaMade scope params body store value made) :
    store.Grows made := by
  rcases done.compiled with ⟨node, _, closures⟩
  refine ⟨Nat.le_of_eq (by rw [done.frames_eq]), ?_, ?_⟩
  · intro id closure found
    have old := (Store.closure?_isSome_iff store id).mp (by rw [found]; rfl)
    rw [closures, if_neg (Nat.ne_of_lt old), found]
  · intro placeholder id found
    rw [Store.referent?] at found ⊢
    rw [done.cells_eq, found]

theorem DefunMade.grows {scope : Scope} {name : String} {params : List String} {body : Expr}
    {store made : Store} {value : Value}
    (done : DefunMade scope name params body store value made) : store.Grows made := by
  rcases done.compiled with ⟨node, _, closures⟩
  refine ⟨by rw [done.frames_eq]; simp [Store.define], ?_, ?_⟩
  · intro id closure found
    have old := (Store.closure?_isSome_iff store id).mp (by rw [found]; rfl)
    rw [closures, if_neg (Nat.ne_of_lt old), found]
  · intro placeholder id found
    have filled : placeholder.cell ≠ store.cells.size := by
      intro isNew
      simp [Store.referent?, isNew] at found
    rw [done.referent?_eq, if_neg filled, found]

namespace Store.Effect

variable {scope : Scope} {defines assigns : String → Prop} {store changed : Store}

/-- What a step writes to frames: nothing, or one value under one name. The name is a target, and it
is bound in the own frame or in a frame of the scope that binds it already. -/
theorem frames_cases (effect : Effect scope defines assigns store changed) :
    changed.frames = store.frames ∨
      ∃ id name value, changed.frames = (store.bind id name value).frames ∧
        (id = scope.own ∧ defines name ∨
          id ∈ scope.chain ∧ store.binds id name ∧ assigns name) := by
  cases effect with
  | define value target =>
      exact Or.inr ⟨scope.own, _, value, rfl, Or.inl ⟨rfl, target⟩⟩
  | assign target bound =>
      rcases eq_bind_of_set bound with ⟨owner, ownerMem, binds, rfl⟩
      exact Or.inr ⟨owner, _, _, rfl, Or.inr ⟨ownerMem, binds, target⟩⟩
  | lambda done => exact Or.inl done.frames_eq
  | defun target done =>
      exact Or.inr ⟨scope.own, _, _, done.frames_eq, Or.inl ⟨rfl, target⟩⟩

theorem grows (effect : Effect scope defines assigns store changed) : store.Grows changed := by
  cases effect with
  | define value target => exact grows_bind store scope.own _ value
  | assign target bound =>
      rcases eq_bind_of_set bound with ⟨owner, _, _, rfl⟩
      exact grows_bind store owner _ _
  | lambda done => exact done.grows
  | defun target done => exact done.grows

/-- The body of a function that a step makes was compiled. -/
theorem compiled_of_closure? (effect : Effect scope defines assigns store changed) {id : ClosureId}
    {closure : Closure} (found : changed.closure? id = some closure) :
    store.closure? id = some closure ∨
      ∃ context body, Expr.compile context body = .ok closure.body := by
  cases effect with
  | define value target => exact Or.inl found
  | assign target bound =>
      rcases eq_bind_of_set bound with ⟨owner, _, _, rfl⟩
      exact Or.inl found
  | lambda done =>
      rcases done.compiled with ⟨node, compiled, closures⟩
      rw [closures] at found
      split at found
      · cases found
        exact Or.inr ⟨_, _, compiled⟩
      · exact Or.inl found
  | defun target done =>
      rcases done.compiled with ⟨node, compiled, closures⟩
      rw [closures] at found
      split at found
      · cases found
        exact Or.inr ⟨_, _, compiled⟩
      · exact Or.inl found

theorem mono {definesMore assignsMore : String → Prop}
    (effect : Effect scope defines assigns store changed)
    (moreDefined : ∀ name, defines name → definesMore name)
    (moreAssigned : ∀ name, assigns name → assignsMore name) :
    Effect scope definesMore assignsMore store changed := by
  cases effect with
  | define value target => exact .define value (moreDefined _ target)
  | assign target bound => exact .assign (moreAssigned _ target) bound
  | lambda done => exact .lambda done
  | defun target done => exact .defun (moreDefined _ target) done

theorem binds_of_binds (effect : Effect scope defines assigns store changed) {id : FrameId}
    {name : String} (bound : store.binds id name) : changed.binds id name := by
  rcases effect.frames_cases with same | ⟨written, target, value, framesEq, _⟩
  · simpa only [binds, frame, same] using bound
  · have frameEq : changed.frame id = (store.bind written target value).frame id := by
      simp only [frame, framesEq]
    simp only [binds, Assoc.contains, frameEq, get?_frame_bind] at bound ⊢
    split
    · rfl
    · exact bound

/-- A step changes the binding of a target only, and only where the target may be written. -/
theorem target_of_get?_ne (effect : Effect scope defines assigns store changed) {id : FrameId}
    {name : String} (differs : (changed.frame id).get? name ≠ (store.frame id).get? name) :
    id = scope.own ∧ defines name ∨ id ∈ scope.chain ∧ store.binds id name ∧ assigns name := by
  rcases effect.frames_cases with same | ⟨written, target, value, framesEq, allowed⟩
  · simp [frame, same] at differs
  · have frameEq : changed.frame id = (store.bind written target value).frame id := by
      simp only [frame, framesEq]
    rw [frameEq, get?_frame_bind] at differs
    split at differs
    · rename_i here
      rcases here with ⟨rfl, rfl, _⟩
      exact allowed
    · exact absurd rfl differs

end Store.Effect

/-! ### Any number of steps -/

/-- The changes that evaluating an expression in a scope may make. -/
abbrev Expr.EffectIn (expr : Expr) (scope : Scope) : Store → Store → Prop :=
  Store.Effect scope expr.Defines expr.Assigns

namespace Store

variable {scope : Scope} {defines assigns : String → Prop} {store final : Store}

theorem binds_of_effects
    (path : Relation.ReflTransGen (Effect scope defines assigns) store final) {id : FrameId}
    {name : String} (bound : store.binds id name) : final.binds id name := by
  induction path with
  | refl => exact bound
  | tail _ effect ih => exact effect.binds_of_binds ih

theorem target_of_effects
    (path : Relation.ReflTransGen (Effect scope defines assigns) store final) {id : FrameId}
    {name : String} (differs : (final.frame id).get? name ≠ (store.frame id).get? name) :
    id = scope.own ∧ defines name ∨ id ∈ scope.chain ∧ store.binds id name ∧ assigns name := by
  induction path with
  | refl => exact absurd rfl differs
  | @tail middle final _ effect ih =>
      by_cases changedBefore : (middle.frame id).get? name = (store.frame id).get? name
      · -- the last step is the first to change this binding, so it was there from the start
        rw [← changedBefore] at differs
        rcases effect.target_of_get?_ne differs with defined | ⟨inScope, bound, assigned⟩
        · exact Or.inl defined
        · rw [binds, Assoc.contains, changedBefore] at bound
          exact Or.inr ⟨inScope, bound, assigned⟩
      · exact ih changedBefore

theorem compiled_of_effects
    (path : Relation.ReflTransGen (Effect scope defines assigns) store final) {id : ClosureId}
    {closure : Closure} (found : final.closure? id = some closure) :
    store.closure? id = some closure ∨
      ∃ context body, Expr.compile context body = .ok closure.body := by
  induction path with
  | refl => exact Or.inl found
  | tail _ effect ih =>
      rcases effect.compiled_of_closure? found with before | compiled
      · exact ih before
      · exact Or.inr compiled

end Store

/-! ### Evaluation -/

namespace Evaluation

variable {α β : Type} {step : Store → Store → Prop}

/-- An evaluation leaves a store that some steps lead to, whether it succeeds or fails. -/
def Moves (step : Store → Store → Prop) (run : Evaluation α) : Prop :=
  ∀ store, Relation.ReflTransGen step store (run.outcome store).2

namespace Moves

theorem pure (value : α) : Moves step (Pure.pure value : Evaluation α) :=
  fun _ => .refl

theorem read (query : Store → Except Failure α) : Moves step (Evaluation.read query) := by
  intro store
  rw [outcome_read]

theorem ofExcept (result : Except Failure α) : Moves step (Evaluation.ofExcept result) := by
  intro store
  rw [outcome_ofExcept]

theorem bind {run : Evaluation α} {next : α → Evaluation β} (first : Moves step run)
    (rest : ∀ value, Moves step (next value)) : Moves step (run >>= next) := by
  intro store
  have reached := first store
  rcases stopped : run.outcome store with ⟨result, middle⟩
  rw [stopped] at reached
  cases result with
  | error failure =>
      rw [outcome_bind_error stopped]
      exact reached
  | ok value =>
      rw [outcome_bind_ok stopped]
      exact reached.trans (rest value middle)

theorem lift {expr whole : Expr} {scope : Scope} {run : Evaluation α}
    (moves : Moves (expr.EffectIn scope) run)
    (inside : ∀ node, expr.HasNode node → whole.HasNode node) :
    Moves (whole.EffectIn scope) run := by
  intro store
  refine Relation.ReflTransGen.mono ?_ _ _ (moves store)
  intro before after effect
  apply effect.mono
  · rintro name (⟨value, node⟩ | ⟨params, body, node⟩)
    · exact Or.inl ⟨value, inside _ node⟩
    · exact Or.inr ⟨params, body, inside _ node⟩
  · rintro name ⟨value, node⟩
    exact ⟨value, inside _ node⟩

theorem mapM (items : List α) {visit : α → Evaluation β}
    (each : ∀ item ∈ items, Moves step (visit item)) : Moves step (items.mapM visit) := by
  induction items with
  | nil => exact .pure []
  | cons item items ih =>
      rw [List.mapM_cons]
      apply bind (each item List.mem_cons_self)
      intro value
      apply bind (ih fun other otherMem => each other (List.mem_cons_of_mem _ otherMem))
      intro values
      exact .pure _

end Moves

end Evaluation

open Evaluation

/-- Evaluation in code position and in data position changes the store by effects of the expression
only, one after the other. -/
theorem Expr.evalWith_moves (invoke : Store → Function → List Value → Except Failure Value)
    (scope : Scope) (expr : Expr) :
    Moves (expr.EffectIn scope) (expr.evalWith invoke scope) ∧
      Moves (expr.EffectIn scope) (expr.evalDatum invoke scope) := by
  induction expr with
  | literal value =>
      rw [evalWith, evalDatum]
      exact ⟨.pure _, .pure _⟩
  | symbol name =>
      rw [evalWith, evalDatum]
      exact ⟨.read _, .pure _⟩
  | list items ih =>
      constructor
      · cases items with
        | nil =>
            rw [evalWith]
            exact .pure _
        | cons head args =>
            rw [evalWith, evalEach_eq_mapM]
            apply Moves.bind ((ih head List.mem_cons_self).1.lift fun _ => .item List.mem_cons_self)
            intro callee
            apply Moves.bind (.ofExcept _)
            intro callee
            apply Moves.bind
            · apply Moves.mapM
              intro arg argMem
              have argMem := List.mem_cons_of_mem head argMem
              exact (ih arg argMem).1.lift fun _ => .item argMem
            · intro values
              exact .read _
      · rw [evalDatum, evalData_eq_mapM]
        apply Moves.bind
        · apply Moves.mapM
          intro item itemMem
          exact (ih item itemMem).2.lift fun _ => .item itemMem
        · intro values
          exact .pure _
  | quote datum ih =>
      rw [evalWith, evalDatum]
      have moves := ih.2.lift fun _ => HasNode.datum
      exact ⟨moves, moves.bind fun _ => .pure _⟩
  | unquote code ih =>
      rw [evalWith, evalDatum]
      exact ⟨.ofExcept _, ih.1.lift fun _ => .code⟩
  | sequence forms ih =>
      rw [evalWith, evalDatum, evalEach_eq_mapM]
      refine ⟨?_, .ofExcept _⟩
      apply Moves.bind
      · apply Moves.mapM
        intro form formMem
        exact (ih form formMem).1.lift fun _ => .form formMem
      · intro values
        exact .pure _
  | branch test onTrue onFalse ihTest ihTrue ihFalse =>
      rw [evalWith, evalDatum]
      refine ⟨?_, .ofExcept _⟩
      apply Moves.bind (ihTest.1.lift fun _ => .test)
      intro value
      split
      · exact ihTrue.1.lift fun _ => .onTrue
      · exact ihFalse.1.lift fun _ => .onFalse
  | define name value ih =>
      rw [evalWith, evalDatum]
      refine ⟨?_, .ofExcept _⟩
      apply Moves.bind (ih.1.lift fun _ => .defined)
      intro result store
      rw [outcome_define]
      exact .single (.define result (Or.inl ⟨value, .itself _⟩))
  | set name value ih =>
      rw [evalWith, evalDatum]
      refine ⟨?_, .ofExcept _⟩
      apply Moves.bind (ih.1.lift fun _ => .assigned)
      intro result store
      simp only [outcome, Evaluation.set]
      cases assigned : store.set scope name result with
      | error cause => exact .refl
      | ok changed => exact .single (.assign ⟨value, .itself _⟩ assigned)
  | lambda params body _ =>
      rw [evalWith, evalDatum]
      refine ⟨?_, .ofExcept _⟩
      intro store
      rcases outcome_makeLambda scope params body store with
        ⟨value, made, reached, done⟩ | ⟨_, cause, _, reached⟩
      · rw [reached]
        exact .single (.lambda done)
      · rw [reached]
  | defun name params body _ =>
      rw [evalWith, evalDatum]
      refine ⟨?_, .ofExcept _⟩
      intro store
      rcases outcome_makeDefun scope name params body store with
        ⟨value, made, reached, done⟩ | ⟨_, cause, _, reached⟩
      · rw [reached]
        exact .single (.defun (Or.inr ⟨params, body, .itself _⟩) done)
      · rw [reached]

/-- In an expression that compiles, as code or as data, every node outside function bodies does. -/
theorem Expr.HasNode.compiles {context : CompileContext} {expr node : Expr}
    (inside : expr.HasNode node)
    (compiled : (∃ body, expr.compile context = .ok body) ∨
      ∃ body, expr.compileDatum context = .ok body) :
    (∃ body, node.compile context = .ok body) ∨
      ∃ body, node.compileDatum context = .ok body := by
  induction inside with
  | itself => exact compiled
  | @item items item node itemMem _ ih =>
      rcases compiled with ⟨body, compiled⟩ | ⟨body, compiled⟩
      · cases items with
        | nil => exact absurd itemMem List.not_mem_nil
        | cons head args =>
            rw [Expr.compile, compileEach_eq_mapM] at compiled
            rcases bind_eq_ok_iff.mp compiled with ⟨headNode, headOk, compiled⟩
            rcases bind_eq_ok_iff.mp compiled with ⟨argNodes, argsOk, _⟩
            rcases List.mem_cons.mp itemMem with rfl | argMem
            · exact ih (Or.inl ⟨headNode, headOk⟩)
            · exact ih (Or.inl (ok_of_mapM_eq_ok argsOk argMem))
      · rw [compileDatum, compileData_eq_mapM] at compiled
        rcases bind_eq_ok_iff.mp compiled with ⟨nodes, itemsOk, _⟩
        exact ih (Or.inr (ok_of_mapM_eq_ok itemsOk itemMem))
  | datum _ ih =>
      rcases compiled with ⟨body, compiled⟩ | ⟨body, compiled⟩
      · rw [Expr.compile] at compiled
        exact ih (Or.inr ⟨body, compiled⟩)
      · rw [compileDatum] at compiled
        rcases bind_eq_ok_iff.mp compiled with ⟨datumNode, datumOk, _⟩
        exact ih (Or.inr ⟨datumNode, datumOk⟩)
  | code _ ih =>
      rcases compiled with ⟨body, compiled⟩ | ⟨body, compiled⟩
      · simp [Expr.compile] at compiled
      · rw [compileDatum] at compiled
        exact ih (Or.inl ⟨body, compiled⟩)
  | form formMem _ ih =>
      rcases compiled with ⟨body, compiled⟩ | ⟨body, compiled⟩
      · rw [Expr.compile, compileEach_eq_mapM] at compiled
        rcases bind_eq_ok_iff.mp compiled with ⟨nodes, formsOk, _⟩
        exact ih (Or.inl (ok_of_mapM_eq_ok formsOk formMem))
      · simp [compileDatum] at compiled
  | test _ ih =>
      rcases compiled with ⟨body, compiled⟩ | ⟨body, compiled⟩
      · rw [Expr.compile] at compiled
        rcases bind_eq_ok_iff.mp compiled with ⟨testNode, testOk, _⟩
        exact ih (Or.inl ⟨testNode, testOk⟩)
      · simp [compileDatum] at compiled
  | onTrue _ ih =>
      rcases compiled with ⟨body, compiled⟩ | ⟨body, compiled⟩
      · rw [Expr.compile] at compiled
        rcases bind_eq_ok_iff.mp compiled with ⟨_, _, compiled⟩
        rcases bind_eq_ok_iff.mp compiled with ⟨trueNode, trueOk, _⟩
        exact ih (Or.inl ⟨trueNode, trueOk⟩)
      · simp [compileDatum] at compiled
  | onFalse _ ih =>
      rcases compiled with ⟨body, compiled⟩ | ⟨body, compiled⟩
      · rw [Expr.compile] at compiled
        rcases bind_eq_ok_iff.mp compiled with ⟨_, _, compiled⟩
        rcases bind_eq_ok_iff.mp compiled with ⟨_, _, compiled⟩
        rcases bind_eq_ok_iff.mp compiled with ⟨falseNode, falseOk, _⟩
        exact ih (Or.inl ⟨falseNode, falseOk⟩)
      · simp [compileDatum] at compiled
  | defined _ _ => simp [Expr.compile, compileDatum] at compiled
  | assigned _ _ => simp [Expr.compile, compileDatum] at compiled

/-- A body that compiles holds no definition and no assignment. -/
theorem Expr.no_targets_of_compile {context : CompileContext} {body : Expr} {node : Node}
    (compiled : body.compile context = .ok node) (name : String) :
    ¬body.Defines name ∧ ¬body.Assigns name := by
  constructor
  · rintro (⟨value, inside⟩ | ⟨params, inner, inside⟩)
    · simpa [Expr.compile, compileDatum] using inside.compiles (Or.inl ⟨node, compiled⟩)
    · simpa [Expr.compile, compileDatum] using inside.compiles (Or.inl ⟨node, compiled⟩)
  · rintro ⟨value, inside⟩
    simpa [Expr.compile, compileDatum] using inside.compiles (Or.inl ⟨node, compiled⟩)

/-- Evaluating what compiles changes nothing at all. -/
theorem Expr.still_of_compile (invoke : Store → Function → List Value → Except Failure Value)
    (scope : Scope) (context : CompileContext) (expr : Expr) :
    (∀ body, expr.compile context = .ok body →
      Moves (fun _ _ => False) (expr.evalWith invoke scope)) ∧
    ∀ body, expr.compileDatum context = .ok body →
      Moves (fun _ _ => False) (expr.evalDatum invoke scope) := by
  induction expr with
  | literal value =>
      rw [evalWith, evalDatum]
      exact ⟨fun _ _ => .pure _, fun _ _ => .pure _⟩
  | symbol name =>
      rw [evalWith, evalDatum]
      exact ⟨fun _ _ => .read _, fun _ _ => .pure _⟩
  | list items ih =>
      constructor
      · intro body compiled
        cases items with
        | nil =>
            rw [evalWith]
            exact .pure _
        | cons head args =>
            rw [Expr.compile, compileEach_eq_mapM] at compiled
            rcases bind_eq_ok_iff.mp compiled with ⟨headNode, headOk, compiled⟩
            rcases bind_eq_ok_iff.mp compiled with ⟨argNodes, argsOk, _⟩
            rw [evalWith, evalEach_eq_mapM]
            apply Moves.bind ((ih head List.mem_cons_self).1 headNode headOk)
            intro callee
            apply Moves.bind (.ofExcept _)
            intro callee
            apply Moves.bind
            · apply Moves.mapM
              intro arg argMem
              rcases ok_of_mapM_eq_ok argsOk argMem with ⟨argNode, argOk⟩
              exact (ih arg (List.mem_cons_of_mem head argMem)).1 argNode argOk
            · intro values
              exact .read _
      · intro body compiled
        rw [compileDatum, compileData_eq_mapM] at compiled
        rcases bind_eq_ok_iff.mp compiled with ⟨nodes, itemsOk, _⟩
        rw [evalDatum, evalData_eq_mapM]
        apply Moves.bind
        · apply Moves.mapM
          intro item itemMem
          rcases ok_of_mapM_eq_ok itemsOk itemMem with ⟨itemNode, itemOk⟩
          exact (ih item itemMem).2 itemNode itemOk
        · intro values
          exact .pure _
  | quote datum ih =>
      constructor
      · intro body compiled
        rw [Expr.compile] at compiled
        rw [evalWith]
        exact ih.2 body compiled
      · intro body compiled
        rw [compileDatum] at compiled
        rcases bind_eq_ok_iff.mp compiled with ⟨datumNode, datumOk, _⟩
        rw [evalDatum]
        exact (ih.2 datumNode datumOk).bind fun _ => .pure _
  | unquote code ih =>
      constructor
      · rintro body ⟨⟩
      · intro body compiled
        rw [compileDatum] at compiled
        rw [evalDatum]
        exact ih.1 body compiled
  | sequence forms ih =>
      constructor
      · intro body compiled
        rw [Expr.compile, compileEach_eq_mapM] at compiled
        rcases bind_eq_ok_iff.mp compiled with ⟨nodes, formsOk, _⟩
        rw [evalWith, evalEach_eq_mapM]
        apply Moves.bind
        · apply Moves.mapM
          intro form formMem
          rcases ok_of_mapM_eq_ok formsOk formMem with ⟨formNode, formOk⟩
          exact (ih form formMem).1 formNode formOk
        · intro values
          exact .pure _
      · rintro body ⟨⟩
  | branch test onTrue onFalse ihTest ihTrue ihFalse =>
      constructor
      · intro body compiled
        rw [Expr.compile] at compiled
        rcases bind_eq_ok_iff.mp compiled with ⟨testNode, testOk, compiled⟩
        rcases bind_eq_ok_iff.mp compiled with ⟨trueNode, trueOk, compiled⟩
        rcases bind_eq_ok_iff.mp compiled with ⟨falseNode, falseOk, _⟩
        rw [evalWith]
        apply Moves.bind (ihTest.1 testNode testOk)
        intro value
        split
        · exact ihTrue.1 trueNode trueOk
        · exact ihFalse.1 falseNode falseOk
      · rintro body ⟨⟩
  | define | set | lambda | defun =>
      constructor <;> rintro body ⟨⟩

theorem Evaluation.Moves.store_eq {α : Type} {run : Evaluation α}
    (still : Moves (fun _ _ => False) run) (store : Store) : (run.outcome store).2 = store := by
  rcases Relation.ReflTransGen.cases_tail (still store) with same | ⟨_, _, impossible⟩
  · exact same
  · exact impossible.elim

/-- Effects are confined to definitions and assignments that are carried out directly. Whatever the
outcome of an evaluation, no frame loses a binding, and a binding differs afterwards only if it is
that of a target of a definition in the own frame of the scope, or that of a target of an assignment
in a frame of the scope that had it before.

Calls change nothing, and leave a session as it was. What they run are compiled bodies: every
function that evaluation makes has one, a body that compiles holds no definition and no assignment,
and even evaluating it directly, in whatever scope and store, leaves the store as it was. -/
theorem eval_changes_only_targets (expr : Expr) (depth : Nat) (scope : Scope) (store : Store) :
    Relation.ReflTransGen (Store.Effect scope expr.Defines expr.Assigns) store
      ((expr.eval depth scope).outcome store).2 ∧
    (∀ id name, store.binds id name →
      ((expr.eval depth scope).outcome store).2.binds id name) ∧
    (∀ id name,
      (((expr.eval depth scope).outcome store).2.frame id).get? name ≠
        (store.frame id).get? name →
      id = scope.own ∧ expr.Defines name ∨
        id ∈ scope.chain ∧ store.binds id name ∧ expr.Assigns name) ∧
    (∀ id closure, ((expr.eval depth scope).outcome store).2.closure? id = some closure →
      store.closure? id = some closure ∨
        ∃ context body, Expr.compile context body = .ok closure.body) ∧
    (∀ (session : Session) slot args, (session.perform (.call slot args)).2 = session) ∧
    ∀ (context : CompileContext) (body : Expr) node, body.compile context = .ok node →
      (∀ name, ¬body.Defines name ∧ ¬body.Assigns name) ∧
      ∀ depth scope store, ((body.eval depth scope).outcome store).2 = store := by
  have path := (expr.evalWith_moves (fun store => store.call depth) scope).1 store
  refine ⟨path, ?_, ?_, ?_, ?_, ?_⟩
  · intro id name bound
    exact Store.binds_of_effects path bound
  · intro id name differs
    exact Store.target_of_effects path differs
  · intro id closure found
    exact Store.compiled_of_effects path found
  · intro session slot args
    rfl
  · intro context body node compiled
    refine ⟨body.no_targets_of_compile compiled, ?_⟩
    intro depth scope store
    exact ((body.still_of_compile _ scope context).1 node compiled).store_eq store

end ExactLisp
