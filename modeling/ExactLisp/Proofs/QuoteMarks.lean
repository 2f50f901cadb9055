import ExactLisp.Proofs.Layout
import ExactLisp.Proofs.Meaning
import ExactLisp.Proofs.Mirroring
import ExactLisp.Proofs.ParameterNames

/-!
# The quote mark is shorthand

A quotation is written with a mark or as a list headed by `quote`. In code the two are one
expression. In data a mark makes a quote of its own and a list stays a list, and the two walkers
over quoted data, that of evaluation and that of compilation, make one value of them.

What is unquoted inside data may make functions, and the bodies of these may hold quotes again. So
two evaluations are compared that leave different bodies behind. The bodies are the same constant or
none and evaluate to the same in every store (`Node.Alike`), and stores that differ in such bodies
only answer every call alike (`Store.Alike.call`).
-/

namespace ExactLisp

/-! ### Quotes as lists -/

namespace Expr

mutual

/-- An expression that is read in one way or the other, with every quote that is read as data
replaced by the list that it stands for. -/
def listQuotes : Reading → Expr → Expr
  | _, literal value => literal value
  | _, symbol name => symbol name
  | reading, list items => list (listQuotesEach reading items)
  | .code, quote datum => quote (datum.listQuotes .data)
  | .data, quote datum => list [symbol "quote", datum.listQuotes .data]
  | _, unquote code => unquote (code.listQuotes .code)
  | reading, sequence forms => sequence (listQuotesEach reading forms)
  | reading, branch test onTrue onFalse =>
    branch (test.listQuotes reading) (onTrue.listQuotes reading) (onFalse.listQuotes reading)
  | reading, define name value => define name (value.listQuotes reading)
  | reading, set name value => set name (value.listQuotes reading)
  | reading, lambda params body => lambda params (body.listQuotes reading)
  | reading, defun name params body => defun name params (body.listQuotes reading)

/-- Expressions that are read alike, with every quote that is read as data replaced by a list. -/
def listQuotesEach : Reading → List Expr → List Expr
  | _, [] => []
  | reading, expr :: exprs => expr.listQuotes reading :: listQuotesEach reading exprs

end

theorem listQuotesEach_eq_map (reading : Reading) (exprs : List Expr) :
    listQuotesEach reading exprs = exprs.map (listQuotes reading) := by
  induction exprs with
  | nil => rfl
  | cons expr exprs ih => rw [listQuotesEach, ih, List.map_cons]

end Expr

/-! ### Bodies that cannot be told apart -/

section Matched

variable {ε α β γ δ : Type} {related : α → β → Prop} {left : Except ε α} {right : Except ε β}

/-- Two computations fail both with one error, or succeed both with related values. -/
inductive Matched (related : α → β → Prop) : Except ε α → Except ε β → Prop where
  | ok {value : α} {other : β} (pair : related value other) :
      Matched related (.ok value) (.ok other)
  | error (failure : ε) : Matched related (.error failure) (.error failure)

theorem Matched.bind {relatedNext : γ → δ → Prop} {nextLeft : α → Except ε γ}
    {nextRight : β → Except ε δ} (first : Matched related left right)
    (next : ∀ value other, related value other →
      Matched relatedNext (nextLeft value) (nextRight other)) :
    Matched relatedNext (left >>= nextLeft) (right >>= nextRight) := by
  cases first with
  | ok pair => exact next _ _ pair
  | error failure => exact .error failure

theorem Matched.mapM {respell : γ → δ} {visitLeft : γ → Except ε α} {visitRight : δ → Except ε β}
    {items : List γ}
    (each : ∀ item ∈ items, Matched related (visitLeft item) (visitRight (respell item))) :
    Matched (List.Forall₂ related) (items.mapM visitLeft)
      ((items.map respell).mapM visitRight) := by
  induction items with
  | nil => exact .ok .nil
  | cons item items ih =>
      rw [List.forall_mem_cons] at each
      rw [List.map_cons, List.mapM_cons, List.mapM_cons]
      apply each.1.bind
      intro value other pair
      apply (ih each.2).bind
      intro values others pairs
      exact .ok (.cons pair pairs)

end Matched

/-- A walk over related items, in any monad, is one walk if each step is. -/
theorem mapM_eq_of_forall₂ {m : Type → Type} [Monad m] {α β γ : Type} {related : α → β → Prop}
    {visitLeft : α → m γ} {visitRight : β → m γ} {items : List α} {others : List β}
    [LawfulMonad m] (pairs : List.Forall₂ related items others)
    (each : ∀ item other, related item other → visitRight other = visitLeft item) :
    others.mapM visitRight = items.mapM visitLeft := by
  induction pairs with
  | nil => rfl
  | cons pair _ ih => rw [List.mapM_cons, List.mapM_cons, each _ _ pair, ih]

namespace Node

/-- Two nodes are the same constant or none, and evaluate to the same. -/
structure Alike (left right : Node) : Prop where
  sameConstant : right.constant? = left.constant?
  sameResult : ∀ store invoke args, right.eval store invoke args = left.eval store invoke args

theorem mapM_constant?_constants (values : List Value) :
    (values.map constant).mapM constant? = some values := by
  induction values with
  | nil => rfl
  | cons value values ih =>
      rw [List.map_cons, List.mapM_cons, ih]
      rfl

theorem constant?_foldSequence (nodes : List Node) :
    (foldSequence nodes).constant? = (nodes.mapM constant?).map (·.getLastD .nil) := by
  rw [foldSequence]
  split
  · rename_i allConstant
    rcases eq_map_constant_of_all allConstant with ⟨values, rfl⟩
    rw [mapM_constant?_constants, List.getLastD_map]
    rfl
  · rename_i notAll
    cases constants : nodes.mapM constant? with
    | none => rfl
    | some values =>
        rw [eq_map_constant_of_mapM constants] at notAll
        simp [isConstant, constant?] at notAll

theorem constant?_foldList (nodes : List Node) :
    (foldList nodes).constant? = (nodes.mapM constant?).map .list := by
  rw [foldList]
  cases nodes.mapM constant? <;> rfl

theorem constant?_foldQuoted (node : Node) :
    (foldQuoted node).constant? = node.constant?.map Value.quoted := by
  rw [foldQuoted]
  cases node.constant? <;> rfl

theorem constant?_foldBranch (test onTrue onFalse : Node) :
    (foldBranch test onTrue onFalse).constant? = test.constant?.bind fun value =>
      if value.isTruthy then onTrue.constant? else onFalse.constant? := by
  rw [foldBranch]
  cases test.constant? with
  | none => rfl
  | some value =>
      simp only [Option.bind_some]
      split <;> rfl

namespace Alike

variable {left right : Node} {nodes others : List Node}

theorem refl (node : Node) : Alike node node :=
  ⟨rfl, fun _ _ _ => rfl⟩

theorem evalEach (pairs : List.Forall₂ Alike nodes others) (store : Store)
    (invoke : Function → List Value → Except Failure Value) (args : List Value) :
    Node.evalEach store invoke args others = Node.evalEach store invoke args nodes := by
  rw [evalEach_eq_mapM, evalEach_eq_mapM]
  exact mapM_eq_of_forall₂ pairs fun _ _ pair => pair.sameResult store invoke args

theorem constants (pairs : List.Forall₂ Alike nodes others) :
    others.mapM constant? = nodes.mapM constant? :=
  mapM_eq_of_forall₂ pairs fun _ _ pair => pair.sameConstant

theorem call (head : Alike left right) (args : List.Forall₂ Alike nodes others) :
    Alike (.call left nodes) (.call right others) := by
  refine ⟨rfl, ?_⟩
  intro store invoke values
  rw [eval, eval, head.sameResult, evalEach args]

theorem foldSequence (pairs : List.Forall₂ Alike nodes others) :
    Alike (foldSequence nodes) (foldSequence others) := by
  refine ⟨by rw [constant?_foldSequence, constant?_foldSequence, constants pairs], ?_⟩
  intro store invoke args
  rw [eval_foldSequence, eval_foldSequence, eval, eval, evalEach pairs]

theorem foldList (pairs : List.Forall₂ Alike nodes others) :
    Alike (foldList nodes) (foldList others) := by
  refine ⟨by rw [constant?_foldList, constant?_foldList, constants pairs], ?_⟩
  intro store invoke args
  rw [eval_foldList, eval_foldList, eval, eval, evalEach pairs]

theorem foldBranch {onTrue onFalse onTrueRight onFalseRight : Node} (test : Alike left right)
    (ifTrue : Alike onTrue onTrueRight) (ifFalse : Alike onFalse onFalseRight) :
    Alike (foldBranch left onTrue onFalse) (foldBranch right onTrueRight onFalseRight) := by
  constructor
  · rw [constant?_foldBranch, constant?_foldBranch, test.sameConstant, ifTrue.sameConstant,
      ifFalse.sameConstant]
  · intro store invoke args
    rw [eval_foldBranch, eval_foldBranch, eval, eval, test.sameResult, ifTrue.sameResult,
      ifFalse.sameResult]

/-- A quote in data is the list of the name and the datum. -/
theorem foldQuoted (pair : Alike left right) :
    Alike (foldQuoted left) (Node.foldList [.constant (.symbol "quote"), right]) := by
  constructor
  · rw [constant?_foldQuoted, constant?_foldList, List.mapM_cons, List.mapM_cons, pair.sameConstant]
    cases left.constant? <;> rfl
  · intro store invoke args
    rw [eval_foldQuoted, eval_foldList, eval, eval, Node.evalEach, Node.evalEach, pair.sameResult]
    cases left.eval store invoke args <;> rfl

end Alike

end Node

/-! ### Compilation -/

/-- A body and the body with its quoted data written out compile to nodes that cannot be told apart,
or fail with one error, wherever names refer to the same. -/
theorem Expr.compile_listQuotes {left right : CompileContext}
    (sameNames : ∀ name, right.headReference name = left.headReference name) (expr : Expr) :
    Matched Node.Alike (expr.compile left) ((expr.listQuotes .code).compile right) ∧
    Matched Node.Alike (expr.compileDatum left)
      ((expr.listQuotes .data).compileDatum right) := by
  induction expr with
  | literal value => exact ⟨.ok (.refl _), .ok (.refl _)⟩
  | symbol name =>
      refine ⟨?_, .ok (.refl _)⟩
      simp only [listQuotes, compile, CompileContext.valueReference, sameNames]
      exact .ok (.refl _)
  | list items ih =>
      rw [listQuotes, listQuotes, listQuotesEach_eq_map, listQuotesEach_eq_map]
      constructor
      · cases items with
        | nil => exact .ok (.refl _)
        | cons head args =>
            rw [List.forall_mem_cons] at ih
            simp only [List.map_cons, compile, compileEach_eq_mapM]
            apply ih.1.1.bind
            intro node other pair
            apply (Matched.mapM fun arg argMem => (ih.2 arg argMem).1).bind
            intro operands others pairs
            refine .ok (.call ?_ pairs)
            cases head with
            | symbol name =>
                simp only [listQuotes, CompileContext.callHead, sameNames]
                exact .refl _
            | _ => exact pair
      · simp only [compileDatum, compileData_eq_mapM]
        apply (Matched.mapM fun item itemMem => (ih item itemMem).2).bind
        intro nodes others pairs
        exact .ok (.foldList pairs)
  | quote datum ih =>
      refine ⟨ih.2, ?_⟩
      have readsItems : (Expr.list [symbol "quote", datum.listQuotes .data]).compileDatum right =
          (datum.listQuotes .data).compileDatum right >>= fun node =>
            pure (Node.foldList [.constant (.symbol "quote"), node]) := by
        simp only [compileDatum, compileData]
        cases (datum.listQuotes .data).compileDatum right <;> rfl
      rw [listQuotes, readsItems, compileDatum]
      apply ih.2.bind
      intro node other pair
      exact .ok pair.foldQuoted
  | unquote code ih => exact ⟨.error _, ih.1⟩
  | sequence forms ih =>
      refine ⟨?_, .error _⟩
      simp only [listQuotes, listQuotesEach_eq_map, compile, compileEach_eq_mapM]
      apply (Matched.mapM fun form formMem => (ih form formMem).1).bind
      intro nodes others pairs
      exact .ok (.foldSequence pairs)
  | branch test onTrue onFalse ihTest ihTrue ihFalse =>
      refine ⟨?_, .error _⟩
      simp only [listQuotes, compile]
      apply ihTest.1.bind
      intro test testRight sameTest
      apply ihTrue.1.bind
      intro onTrue onTrueRight sameTrue
      apply ihFalse.1.bind
      intro onFalse onFalseRight sameFalse
      exact .ok (.foldBranch sameTest sameTrue sameFalse)
  | define | set | lambda | defun => exact ⟨.error _, .error _⟩

/-! ### Calls -/

/-- Two functions have one name and number of parameters, and bodies that cannot be told apart. -/
structure Closure.Alike (left right : Closure) : Prop where
  name : right.name = left.name
  arity : right.arity = left.arity
  body : left.body.Alike right.body

/-- Two stores differ in the bodies of their functions only, and these cannot be told apart. -/
structure Store.Alike (left right : Store) : Prop where
  frames : right.frames = left.frames
  cells : right.cells = left.cells
  size : right.closures.size = left.closures.size
  closures : ∀ id, Option.Rel Closure.Alike (left.closure? id) (right.closure? id)

namespace Store.Alike

variable {left right : Store}

theorem refl (store : Store) : store.Alike store := by
  refine ⟨rfl, rfl, rfl, ?_⟩
  intro id
  cases store.closure? id with
  | none => exact .none
  | some closure => exact .some ⟨rfl, rfl, .refl _⟩

theorem frame (alike : left.Alike right) (id : FrameId) : right.frame id = left.frame id := by
  rw [Store.frame, Store.frame, alike.frames]

theorem lookup? (alike : left.Alike right) (scope : Scope) (name : String) :
    right.lookup? scope name = left.lookup? scope name :=
  lookup?_congr name fun id _ => alike.frame id

theorem lookup (alike : left.Alike right) (scope : Scope) (name : String) :
    right.lookup scope name = left.lookup scope name :=
  lookup_congr (alike.lookup? scope name)

theorem closureId? (alike : left.Alike right) (callee : Function) :
    right.closureId? callee = left.closureId? callee := by
  cases callee <;> simp [Store.closureId?, referent?, alike.cells]

theorem resolve (alike : left.Alike right) (placeholder : Placeholder) :
    right.resolve placeholder = left.resolve placeholder :=
  resolve_congr (alike.closureId? (.placeholder placeholder))

/-- Nodes do not look at the functions of a store. -/
theorem eval (alike : left.Alike right) (invoke : Function → List Value → Except Failure Value)
    (args : List Value) (node : Node) :
    node.eval right invoke args = node.eval left invoke args := by
  have each : ∀ {nodes : List Node},
      (∀ node ∈ nodes, node.eval right invoke args = node.eval left invoke args) →
      Node.evalEach right invoke args nodes = Node.evalEach left invoke args nodes := by
    intro nodes same
    rw [Node.evalEach_eq_mapM, Node.evalEach_eq_mapM]
    exact mapM_eq_of_forall₂ (List.forall₂_same.mpr same) fun _ _ pair => pair
  induction node with
  | constant | argument => rfl
  | late scope name => rw [Node.eval, Node.eval, alike.lookup]
  | itself placeholder => rw [Node.eval, Node.eval, alike.resolve]
  | call head operands ihHead ihOperands =>
      rw [Node.eval, Node.eval, ihHead, each ihOperands]
  | sequence nodes ih => rw [Node.eval, Node.eval, each ih]
  | branch test onTrue onFalse ihTest ihTrue ihFalse =>
      rw [Node.eval, Node.eval, ihTest, ihTrue, ihFalse]
  | quoted node ih => rw [Node.eval, Node.eval, ih]
  | list nodes ih => rw [Node.eval, Node.eval, each ih]

theorem runClosure (alike : left.Alike right)
    (invoke : Function → List Value → Except Failure Value) (id : ClosureId) (args : List Value) :
    right.runClosure invoke id args = left.runClosure invoke id args := by
  have pair := alike.closures id
  rw [Store.runClosure, Store.runClosure]
  generalize left.closure? id = found, right.closure? id = foundRight at pair
  cases pair with
  | none => rfl
  | some same =>
      simp only [Closure.title, same.name, same.arity]
      rw [alike.eval, same.body.sameResult]

/-- Whatever is called, stores that cannot be told apart answer alike. -/
theorem call (alike : left.Alike right) (depth : Nat) : right.call depth = left.call depth := by
  induction depth with
  | zero => rfl
  | succ depth ih =>
      funext callee args
      cases callee with
      | builtin builtin =>
          rw [Store.call, Store.call, runBuiltin, runBuiltin, ih]
          split
          · exact (Primitive.coincide_run (fun _ _ => trivial)
              (fun callee _ => alike.closureId? callee)
              (fun callee values _ _ => coincide_any _) builtin.primitive
              fun _ _ _ _ => trivial).1
          · rfl
      | closure id =>
          rw [Store.call, Store.call, ih]
          exact alike.runClosure (left.call depth) id args
      | placeholder placeholder =>
          rw [Store.call, Store.call, ih, alike.resolve]
          congr 1
          funext id
          exact alike.runClosure (left.call depth) id args

theorem bind (alike : left.Alike right) (id : FrameId) (name : String) (value : Value) :
    (left.bind id name value).Alike (right.bind id name value) := by
  refine ⟨?_, alike.cells, alike.size, alike.closures⟩
  simp only [Store.bind, alike.frames]

theorem addPlaceholder (alike : left.Alike right) (name : String) :
    (left.addPlaceholder name).2.Alike (right.addPlaceholder name).2 := by
  refine ⟨alike.frames, ?_, alike.size, alike.closures⟩
  simp only [Store.addPlaceholder, addCell, alike.cells]

theorem fill (alike : left.Alike right) (placeholder : Placeholder) (id : ClosureId) :
    (left.fill placeholder id).Alike (right.fill placeholder id) := by
  refine ⟨alike.frames, ?_, alike.size, alike.closures⟩
  simp only [Store.fill, alike.cells]

theorem addClosure {body other : Node} (alike : left.Alike right) (same : body.Alike other)
    (name : Option String) (arity : Nat) :
    (left.addClosure ⟨name, arity, body⟩).2.Alike (right.addClosure ⟨name, arity, other⟩).2 := by
  refine ⟨alike.frames, alike.cells, ?_, ?_⟩
  · simp [Store.addClosure, alike.size]
  · intro id
    rw [closure?_addClosure, closure?_addClosure, alike.size]
    split
    · exact .some ⟨rfl, rfl, same⟩
    · exact alike.closures id

theorem headReference (alike : left.Alike right) (params : List String)
    (self? : Option Placeholder) (scope : Scope) (name : String) :
    CompileContext.headReference ⟨params, self?, scope, right⟩ name =
      CompileContext.headReference ⟨params, self?, scope, left⟩ name := by
  simp only [CompileContext.headReference, CompileContext.outerReference, alike.lookup?]
  rfl

end Store.Alike

/-! ### Evaluation -/

namespace Evaluation

variable {α β γ δ : Type}

theorem map_id_eq (result : Except Failure α) : result.map id = result := by
  cases result <;> rfl

/-- From stores that cannot be told apart, two evaluations have one result, and leave stores that
cannot be told apart. -/
def Interchangeable (left right : Evaluation α) : Prop :=
  Related Store.Alike id left right

namespace Interchangeable

theorem outcome_eq {left right : Evaluation α} (same : Interchangeable left right) (store : Store) :
    (right.outcome store).1 = (left.outcome store).1 ∧
      (left.outcome store).2.Alike (right.outcome store).2 := by
  have sameOutcome := same store store (.refl store)
  rwa [map_id_eq] at sameOutcome

theorem ofExcept (result : Except Failure α) :
    Interchangeable (Evaluation.ofExcept result) (Evaluation.ofExcept result) :=
  Related.ofExcept (map_id_eq result).symm

theorem pure (value : α) : Interchangeable (Pure.pure value) (Pure.pure value) :=
  Related.pure rfl

theorem read {query : Store → Except Failure α}
    (same : ∀ {left right : Store}, left.Alike right → query right = query left) :
    Interchangeable (Evaluation.read query) (Evaluation.read query) := by
  apply Related.read
  intro left right alike
  rw [map_id_eq, same alike]

theorem bind {left right : Evaluation α} {next nextRight : α → Evaluation β}
    (first : Interchangeable left right)
    (rest : ∀ value, Interchangeable (next value) (nextRight value)) :
    Interchangeable (left >>= next) (right >>= nextRight) :=
  Related.bind first rest

theorem mapM {respell : γ → δ} {items : List γ} {visit : γ → Evaluation α}
    {visitRight : δ → Evaluation α}
    (each : ∀ item ∈ items, Interchangeable (visit item) (visitRight (respell item))) :
    Interchangeable (items.mapM visit) ((items.map respell).mapM visitRight) := by
  have related := Related.mapM items each
  rwa [List.map_id_fun] at related

end Interchangeable

theorem interchangeable_define (scope : Scope) (name : String) (value : Value) :
    Interchangeable (define scope name value) (define scope name value) :=
  fun _ _ alike => ⟨rfl, alike.bind scope.own name value⟩

theorem interchangeable_set (scope : Scope) (name : String) (value : Value) :
    Interchangeable (set scope name value) (set scope name value) := by
  intro leftStore rightStore alike
  have sameOwner : rightStore.owner? scope.chain name = leftStore.owner? scope.chain name := by
    simp only [Store.owner?, Store.binds, alike.frame]
  simp only [outcome, set, Store.set, sameOwner]
  cases leftStore.owner? scope.chain name with
  | none => exact ⟨rfl, alike⟩
  | some owner => exact ⟨rfl, alike.bind owner name value⟩

theorem interchangeable_makeLambda (scope : Scope) (params : List String) (body : Expr) :
    Interchangeable (makeLambda scope params body)
      (makeLambda scope params (body.listQuotes .code)) := by
  intro leftStore rightStore alike
  have compiled := (body.compile_listQuotes (alike.headReference params none scope)).1
  simp only [outcome, makeLambda]
  generalize body.compile _ = result, (body.listQuotes .code).compile _ = resultRight at compiled
  cases compiled with
  | error cause => exact ⟨rfl, alike⟩
  | ok pair =>
      refine ⟨?_, alike.addClosure pair none params.length⟩
      simp only [Store.addClosure, alike.size]
      rfl

theorem interchangeable_makeDefun (scope : Scope) (name : String) (params : List String)
    (body : Expr) :
    Interchangeable (makeDefun scope name params body)
      (makeDefun scope name params (body.listQuotes .code)) := by
  intro leftStore rightStore alike
  have extended := alike.addPlaceholder name
  have compiled := (body.compile_listQuotes (extended.headReference params
    (some ⟨name, leftStore.cells.size⟩) scope)).1
  rw [outcome_makeDefun_eq, outcome_makeDefun_eq, alike.cells, alike.size]
  generalize body.compile _ = result, (body.listQuotes .code).compile _ = resultRight at compiled
  cases compiled with
  | error cause => exact ⟨rfl, alike⟩
  | ok pair =>
      have added := extended.addClosure pair (some name) params.length
      exact ⟨rfl, (added.fill _ _).bind scope.own name _⟩

end Evaluation

open Evaluation

/-- Writing out quoted data makes no difference to evaluation, in code and in data. -/
theorem Expr.interchangeable_listQuotes (depth : Nat) (scope : Scope) (expr : Expr) :
    Interchangeable (expr.evalWith (fun store => store.call depth) scope)
        ((expr.listQuotes .code).evalWith (fun store => store.call depth) scope) ∧
      Interchangeable (expr.evalDatum (fun store => store.call depth) scope)
        ((expr.listQuotes .data).evalDatum (fun store => store.call depth) scope) := by
  induction expr with
  | literal value =>
      simp only [listQuotes, evalWith, evalDatum]
      exact ⟨.pure _, .pure _⟩
  | symbol name =>
      simp only [listQuotes, evalWith, evalDatum]
      refine ⟨.read ?_, .pure _⟩
      intro left right alike
      rw [alike.lookup]
  | list items ih =>
      rw [listQuotes, listQuotes, listQuotesEach_eq_map, listQuotesEach_eq_map]
      constructor
      · cases items with
        | nil =>
            simp only [List.map_nil, evalWith]
            exact .pure _
        | cons head args =>
            rw [List.forall_mem_cons] at ih
            simp only [List.map_cons, evalWith, evalEach_eq_mapM]
            apply ih.1.1.bind
            intro value
            apply (Interchangeable.ofExcept _).bind
            intro callee
            apply (Interchangeable.mapM fun arg argMem => (ih.2 arg argMem).1).bind
            intro values
            apply Interchangeable.read
            intro left right alike
            rw [alike.call]
      · simp only [evalDatum, evalData_eq_mapM]
        apply (Interchangeable.mapM fun item itemMem => (ih item itemMem).2).bind
        intro values
        exact .pure _
  | quote datum ih =>
      simp only [listQuotes, evalWith, evalDatum, evalData, pure_bind, bind_assoc]
      refine ⟨ih.2, ?_⟩
      apply ih.2.bind
      intro value
      exact .pure _
  | unquote code ih =>
      simp only [listQuotes, evalWith, evalDatum]
      exact ⟨.ofExcept _, ih.1⟩
  | sequence forms ih =>
      simp only [listQuotes, listQuotesEach_eq_map, evalWith, evalDatum, evalEach_eq_mapM]
      refine ⟨?_, .ofExcept _⟩
      apply (Interchangeable.mapM fun form formMem => (ih form formMem).1).bind
      intro values
      exact .pure _
  | branch test onTrue onFalse ihTest ihTrue ihFalse =>
      simp only [listQuotes, evalWith, evalDatum]
      refine ⟨?_, .ofExcept _⟩
      apply ihTest.1.bind
      intro value
      split
      · exact ihTrue.1
      · exact ihFalse.1
  | define name value ih =>
      simp only [listQuotes, evalWith, evalDatum]
      refine ⟨?_, .ofExcept _⟩
      apply ih.1.bind
      intro value
      exact interchangeable_define scope name value
  | set name value ih =>
      simp only [listQuotes, evalWith, evalDatum]
      refine ⟨?_, .ofExcept _⟩
      apply ih.1.bind
      intro value
      exact interchangeable_set scope name value
  | lambda params body _ =>
      simp only [listQuotes, evalWith, evalDatum]
      exact ⟨interchangeable_makeLambda scope params body, .ofExcept _⟩
  | defun name params body _ =>
      simp only [listQuotes, evalWith, evalDatum]
      exact ⟨interchangeable_makeDefun scope name params body, .ofExcept _⟩

/-! ### Reading -/

/-- Two texts are one form each, and they are parsed to one expression or fail with one problem. -/
structure ParsedAlike (left right : Except ParseError Expr) : Prop where
  parsed : ∀ expr, right = .ok expr ↔ left = .ok expr
  faulty : ∀ problem, (∃ span, right = .error (.faulty problem span)) ↔
    ∃ span, left = .error (.faulty problem span)
  accepted : ∀ position line expectation, left ≠ .error (.malformed position line expectation) ∧
    right ≠ .error (.malformed position line expectation)

theorem parsedAlike_of_codes {source other : String} {form otherForm : Form}
    (isRead : readForms .single source.toList = .ok [form])
    (isReadOther : readForms .single other.toList = .ok [otherForm])
    (codes : otherForm.toCode.mapError Fault.problem = form.toCode.mapError Fault.problem) :
    ParsedAlike (parseExpression source) (parseExpression other) := by
  rw [parseExpression_eq_of_read isRead, parseExpression_eq_of_read isReadOther]
  cases forForm : form.toCode <;> cases forOther : otherForm.toCode <;>
    constructor <;> simp_all [Except.mapError, ParseError.ofFault]

/-- A text that is parsed as one form has the tokens of a form. -/
theorem exists_written_of_accepted {source : String}
    (accepted : ∀ position line expectation,
      parseExpression source ≠ .error (.malformed position line expectation)) :
    ∃ lexemes form, Splits 0 source.toList lexemes ∧ Form.Written form lexemes := by
  rcases parseExpression_accepts_iff.mp accepted with ⟨forms, isRead⟩
  rcases readForms_eq_ok_iff.mp isRead with ⟨lexemes, split, written, single⟩
  rcases single rfl with ⟨form, rfl⟩
  exact ⟨lexemes, form, split, written.of_singleton⟩

section Reading

variable {text : List Char} {lexemes : List Lexeme} {form : Form}

/-- With a quote mark before it, the text of a form is read as the marked form. -/
theorem readForms_marked (split : Splits 0 text lexemes) (written : form.Written lexemes) :
    ∃ extent inner innerLexemes, inner.Written innerLexemes ∧
      innerLexemes.map Lexeme.token = lexemes.map Lexeme.token ∧
      readForms .single ('\'' :: text) = .ok [.marked extent .quote inner] := by
  have laidOut : LaidOut false (.mark .quote :: lexemes.map Lexeme.token)
      ([] ++ (['\''] ++ text)) :=
    .token .nil (by simp) .quote (split.laidOut (by simp [Token.isWord]))
  rcases laidOut_iff.mp laidOut with ⟨found, splitFound, sameTokens⟩
  rcases List.map_eq_cons_iff.mp sameTokens with ⟨⟨token, extent⟩, inside, rfl, rfl, same⟩
  rcases written.of_tokens inside same with ⟨inner, writtenInner⟩
  refine ⟨⟨extent.start, inner.extent.stop⟩, inner, inside, writtenInner, same, ?_⟩
  exact readForms_eq_ok_iff.mpr
    ⟨_, splitFound, .singleton (.marked writtenInner), fun _ => ⟨_, rfl⟩⟩

/-- With the word `quote` before it and parentheses around both, the text of a form is read as a
list of two. -/
theorem readForms_listed (split : Splits 0 text lexemes) (written : form.Written lexemes) :
    ∃ extent first inner innerLexemes, inner.Written innerLexemes ∧
      innerLexemes.map Lexeme.token = lexemes.map Lexeme.token ∧
      readForms .single ("(quote ".toList ++ text ++ "\n)".toList) =
        .ok [.list extent [.word first "quote".toList, inner]] := by
  have closed : Splits 0 [')'] [⟨.closing, ⟨0, 1⟩⟩] := .token .closing (by simp) .done
  have laidOutInside := (split.append closed).laidOut (by simp : false = true → _)
  rw [List.map_append] at laidOutInside
  have laidOut : LaidOut false
      (.opening :: .word "quote".toList :: (lexemes.map Lexeme.token ++ [.closing]))
      ([] ++ (['('] ++ ([] ++ ("quote".toList ++ (' ' :: (text ++ '\n' :: [')'])))))) := by
    apply LaidOut.token .nil (by simp) .opening
    apply LaidOut.token .nil (by simp [Token.isWord]) (.word (by simp) (List.all_eq_true.mp rfl))
    exact laidOutInside.blank_before rfl
  rcases laidOut_iff.mp laidOut with ⟨found, splitFound, sameTokens⟩
  rcases List.map_eq_cons_iff.mp sameTokens with ⟨⟨token, first⟩, items, rfl, rfl, sameItems⟩
  rcases List.map_eq_cons_iff.mp sameItems with ⟨⟨token, second⟩, others, rfl, rfl, sameOthers⟩
  rcases List.map_eq_append_iff.mp sameOthers with ⟨inside, end_, rfl, same, sameEnd⟩
  rcases List.map_eq_singleton_iff.mp sameEnd with ⟨⟨token, last⟩, rfl, rfl⟩
  rcases written.of_tokens inside same with ⟨inner, writtenInner⟩
  have writtenItems : Form.WrittenEach [.word second "quote".toList, inner]
      (⟨.word "quote".toList, second⟩ :: inside) :=
    .append (.singleton .word) (.singleton writtenInner)
  refine ⟨⟨first.start, last.stop⟩, second, inner, inside, writtenInner, same, ?_⟩
  apply readForms_eq_ok_iff.mpr
  exact ⟨_, splitFound, .singleton (.list_of_each writtenItems), fun _ => ⟨_, rfl⟩⟩

/-- The two forms of a quotation are one expression, or fail with one problem. -/
theorem toCode_quotations {others : List Lexeme} {inner other : Form}
    (written : inner.Written lexemes) (writtenOther : other.Written others)
    (same : others.map Lexeme.token = lexemes.map Lexeme.token) (extent : Extent)
    (listExtent first : Extent) :
    (Form.list listExtent [.word first "quote".toList, other]).toCode.mapError Fault.problem =
      (Form.marked extent .quote inner).toCode.mapError Fault.problem := by
  -- the mark and the word both turn to data, so both quotations may be taken as marked
  have sameCodes := Form.WrittenEach.toCodes_eq
    (.singleton (@Form.Written.marked extent .quote _ _ written))
    (.singleton (@Form.Written.marked extent .quote _ _ writtenOther)) (by simp [same])
  simp only [Form.toCodes, Form.toCode] at sameCodes
  change (Expr.quote <$> other.toDatum).mapError _ = (Expr.quote <$> inner.toDatum).mapError _
  cases forOther : other.toDatum <;> cases forInner : inner.toDatum <;>
    simp_all [Except.mapError, bind, Except.bind, Functor.map, Except.map, pure, Except.pure]

end Reading

/-! ### Shorthand -/

/-- The quote mark is only shorthand. With a mark before it or as a list headed by `quote`, a text
that is one form is parsed to the same expression, or fails with the same problem. And a quote that
is data may be replaced by the list that it stands for, everywhere in an expression: from every
store, in every scope, both are evaluated to the same result and leave the same bindings and
functions that answer alike; as bodies both fail with the same error or compile to nodes which are
the same constant or none, and evaluate to the same. -/
theorem quote_mark_is_shorthand :
    (∀ source : String,
      (∀ position line expectation,
        parseExpression source ≠ .error (.malformed position line expectation)) →
      ParsedAlike (parseExpression ("'" ++ source))
        (parseExpression ("(quote " ++ source ++ "\n)"))) ∧
    (∀ (expr : Expr) (depth : Nat) (scope : Scope) (store : Store),
      let left := (expr.eval depth scope).outcome store
      let right := ((expr.listQuotes .code).eval depth scope).outcome store
      right.1 = left.1 ∧ right.2.frames = left.2.frames ∧ left.2.Alike right.2 ∧
        ∀ later, right.2.call later = left.2.call later) ∧
    ∀ (body : Expr) (context : CompileContext),
      Matched Node.Alike (body.compile context) ((body.listQuotes .code).compile context) := by
  refine ⟨?_, ?_, ?_⟩
  · intro source accepted
    rcases exists_written_of_accepted accepted with ⟨lexemes, form, split, written⟩
    rcases readForms_marked split written with
      ⟨extent, inner, innerLexemes, writtenInner, sameInner, readMarked⟩
    rcases readForms_listed split written with
      ⟨listExtent, first, other, otherLexemes, writtenOther, sameOther, readListed⟩
    apply parsedAlike_of_codes (by simpa using readMarked) (by simpa using readListed)
    exact toCode_quotations writtenInner writtenOther (sameOther.trans sameInner.symm) _ _ _
  · intro expr depth scope store left right
    have same := (expr.interchangeable_listQuotes depth scope).1.outcome_eq store
    exact ⟨same.1, same.2.frames, same.2, same.2.call⟩
  · exact fun body context => (body.compile_listQuotes fun _ => rfl).1

theorem function_made_below_two_quotes_answers_alike :
    let fault : FormProblem := .argumentCount .branch (.fixed 3) 0
    let expr : Expr := .quote (.quote (.unquote (.lambda ["x"]
      (.quote (.list [.quote (.unquote (.symbol "x"))])))))
    let listed : Expr := .quote (.list [.symbol "quote", .unquote (.lambda ["x"]
      (.quote (.list [.list [.symbol "quote", .unquote (.symbol "x")]])))])
    (∀ position line expectation,
      parseExpression "('a ,(if)) ;)" ≠ .error (.malformed position line expectation)) ∧
    (∃ span, parseExpression "'('a ,(if)) ;)" = .error (.faulty fault span)) ∧
    (∃ span, parseExpression "(quote ('a ,(if)) ;)\n)" = .error (.faulty fault span)) ∧
    expr.listQuotes .code = listed ∧
    ((expr.eval 0 ⟨0, []⟩).outcome .empty).2.closure? 0 =
      some ⟨none, 1, .list [.quoted (.argument 0)]⟩ ∧
    ((listed.eval 0 ⟨0, []⟩).outcome .empty).2.closure? 0 =
      some ⟨none, 1, .list [.list [.constant (.symbol "quote"), .argument 0]]⟩ ∧
    ((listed.eval 0 ⟨0, []⟩).outcome .empty).2.call 1 (.closure 0) [.nil] =
      .ok (.list [.list [.symbol "quote", .nil]]) := by
  intro fault expr listed
  have failed : parseExpression "('a ,(if)) ;)" =
      .error (.faulty fault ⟨⟨1, 6⟩, ⟨1, 10⟩, "(if)"⟩) := by rfl
  have accepted : ∀ position line expectation,
      parseExpression "('a ,(if)) ;)" ≠ .error (.malformed position line expectation) := by
    simp [failed]
  have marked : ∃ span, parseExpression "'('a ,(if)) ;)" = .error (.faulty fault span) :=
    ⟨_, rfl⟩
  have isListed : expr.listQuotes .code = listed := rfl
  have sameEval := quote_mark_is_shorthand.2.1 expr 0 ⟨0, []⟩ .empty
  refine ⟨accepted, marked, ?_, isListed, rfl, rfl, ?_⟩
  · exact ((quote_mark_is_shorthand.1 _ accepted).faulty fault).mpr marked
  · rw [← isListed, sameEval.2.2.2]
    rfl

end ExactLisp
