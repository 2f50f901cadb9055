import ExactLisp.Proofs.Bodies

/-!
# Compilation in related contexts

Compilation puts what the names stand for into a body and keeps the shape of the body otherwise. So
a change of bodies that keeps their shape comes out of compilation if it is made to what the names
stand for (`NodeChange.compile`).

The name of a function that is being defined can be told to compilation in two ways: as such, or by
a frame of its own around the body, in which the name stands for the forward reference. The bodies
are the same but for the scope in which they look names up (`Expr.compile_ownFrame`), and they give
the same results (`Node.eval_inOwnFrame`).
-/

namespace ExactLisp

/-- A change of bodies that keeps their shape: constants are changed by a change of values that
keeps data, and what is not at the leaves stays as it is. -/
structure NodeChange where
  node : Node → Node
  value : Value → Value
  constant : ∀ value', node (.constant value') = .constant (value value')
  constant? : ∀ node', (node node').constant? = node'.constant?.map value
  call : ∀ head args, node (.call head args) = .call (node head) (args.map node)
  sequence : ∀ nodes, node (.sequence nodes) = .sequence (nodes.map node)
  branch : ∀ test onTrue onFalse,
    node (.branch test onTrue onFalse) = .branch (node test) (node onTrue) (node onFalse)
  quoted : ∀ node', node (.quoted node') = .quoted (node node')
  list : ∀ nodes, node (.list nodes) = .list (nodes.map node)
  ofLiteral : ∀ literal, value (.ofLiteral literal) = .ofLiteral literal
  symbol : ∀ name, value (.symbol name) = .symbol name
  listOf : ∀ values, value (.list values) = .list (values.map value)
  isTruthy : ∀ value', (value value').isTruthy = value'.isTruthy

namespace NodeChange

variable (change : NodeChange)

theorem foldSequence (nodes : List Node) :
    Node.foldSequence (nodes.map change.node) = change.node (Node.foldSequence nodes) := by
  have sameConstants : (nodes.map change.node).all Node.isConstant = nodes.all Node.isConstant := by
    rw [List.all_map]
    apply List.all_congr rfl
    intro node
    simp [Node.isConstant, change.constant?]
  have nil : change.node (.constant .nil) = .constant .nil := by
    rw [change.constant]
    exact congrArg Node.constant (change.ofLiteral .nil)
  rw [Node.foldSequence, Node.foldSequence, sameConstants]
  split
  · rw [List.getLastD_eq_getLast?, List.getLastD_eq_getLast?, List.getLast?_map]
    cases nodes.getLast? with
    | none => exact nil.symm
    | some node => rfl
  · exact (change.sequence nodes).symm

theorem foldBranch (test onTrue onFalse : Node) :
    Node.foldBranch (change.node test) (change.node onTrue) (change.node onFalse) =
      change.node (Node.foldBranch test onTrue onFalse) := by
  simp only [Node.foldBranch, change.constant?]
  cases test.constant? with
  | none => exact (change.branch test onTrue onFalse).symm
  | some value =>
      simp only [Option.map_some, change.isTruthy]
      split <;> rfl

theorem foldList (nodes : List Node) :
    Node.foldList (nodes.map change.node) = change.node (Node.foldList nodes) := by
  have sameConstants : (nodes.map change.node).mapM Node.constant? =
      (nodes.mapM Node.constant?).map (List.map change.value) := by
    induction nodes with
    | nil => rfl
    | cons node nodes ih =>
        rw [List.map_cons, List.mapM_cons, List.mapM_cons, ih, change.constant?]
        cases node.constant? <;> cases nodes.mapM Node.constant? <;> rfl
  rw [Node.foldList, Node.foldList, sameConstants]
  cases nodes.mapM Node.constant? with
  | none => exact (change.list nodes).symm
  | some values => simp only [Option.map_some, change.constant, change.listOf]

theorem foldQuoted (node : Node) :
    Node.foldQuoted (change.node node) = change.node (Node.foldQuoted node) := by
  simp only [Node.foldQuoted, change.constant?]
  cases node.constant? with
  | none => exact (change.quoted node).symm
  | some value =>
      simp only [Option.map_some, change.constant, Value.quoted, change.listOf, List.map_cons,
        List.map_nil, change.symbol]

variable {left right : CompileContext}

/-- If what names stand for is changed, at the head of a call and as a value, then so are compiled
bodies. -/
theorem compile (heads : ∀ name, right.headReference name = change.node (left.headReference name))
    (values : ∀ name, right.valueReference name = change.node (left.valueReference name))
    (expr : Expr) :
    expr.compile right = (expr.compile left).map change.node ∧
      expr.compileDatum right = (expr.compileDatum left).map change.node := by
  have mapM_eq : ∀ {exprs : List Expr} {visit visitRight : Expr → Except EvalError Node},
      (∀ expr ∈ exprs, visitRight expr = (visit expr).map change.node) →
      exprs.mapM visitRight = (exprs.mapM visit).map (List.map change.node) := by
    intro exprs visit visitRight each
    have mapped := @mapM_eq_map _ _ _ _ _ exprs visit visitRight id change.node each
    rwa [List.map_id] at mapped
  induction expr with
  | literal value =>
      simp [Expr.compile, Expr.compileDatum, Except.map, change.constant, change.ofLiteral]
  | symbol name =>
      simp [Expr.compile, Expr.compileDatum, Except.map, change.constant, change.symbol, values]
  | list items ih =>
      constructor
      · cases items with
        | nil => simp [Expr.compile, Except.map, change.constant, change.listOf]
        | cons head args =>
            rw [List.forall_mem_cons] at ih
            simp only [Expr.compile, Expr.compileEach_eq_mapM]
            apply bind_eq_map ih.1.1
            intro node
            apply bind_eq_map (mapM_eq fun arg argMem => (ih.2 arg argMem).1)
            intro operands
            have sameHead : right.callHead head (change.node node) =
                change.node (left.callHead head node) := by
              cases head with
              | symbol name => exact heads name
              | _ => rfl
            simp [sameHead, change.call, Except.map, pure, Except.pure]
      · simp only [Expr.compileDatum, Expr.compileData_eq_mapM]
        apply bind_eq_map (mapM_eq fun item itemMem => (ih item itemMem).2)
        intro nodes
        exact congrArg Except.ok (change.foldList nodes)
  | quote datum ih =>
      refine ⟨ih.2, ?_⟩
      simp only [Expr.compileDatum]
      apply bind_eq_map ih.2
      intro node
      exact congrArg Except.ok (change.foldQuoted node)
  | unquote code ih => exact ⟨rfl, ih.1⟩
  | sequence forms ih =>
      refine ⟨?_, rfl⟩
      simp only [Expr.compile, Expr.compileEach_eq_mapM]
      apply bind_eq_map (mapM_eq fun form formMem => (ih form formMem).1)
      intro nodes
      exact congrArg Except.ok (change.foldSequence nodes)
  | branch test onTrue onFalse ihTest ihTrue ihFalse =>
      refine ⟨?_, rfl⟩
      simp only [Expr.compile]
      apply bind_eq_map ihTest.1
      intro test
      apply bind_eq_map ihTrue.1
      intro onTrue
      apply bind_eq_map ihFalse.1
      intro onFalse
      exact congrArg Except.ok (change.foldBranch test onTrue onFalse)
  | define name value _ => exact ⟨rfl, rfl⟩
  | set name value _ => exact ⟨rfl, rfl⟩
  | lambda params body _ => exact ⟨rfl, rfl⟩
  | defun name params body _ => exact ⟨rfl, rfl⟩

end NodeChange

/-! ### A frame for the own name -/

namespace Node

mutual

/-- A body that looks its names up in other scopes. -/
def lookIn (place : Scope → String → Scope) : Node → Node
  | constant value => constant value
  | argument index => argument index
  | .variable scope name => .variable (place scope name) name
  | itself placeholder => itself placeholder
  | call head args => call (head.lookIn place) (lookEachIn place args)
  | sequence nodes => sequence (lookEachIn place nodes)
  | branch test onTrue onFalse =>
    branch (test.lookIn place) (onTrue.lookIn place) (onFalse.lookIn place)
  | quoted node => quoted (node.lookIn place)
  | list nodes => list (lookEachIn place nodes)

/-- Bodies that look their names up in other scopes. -/
def lookEachIn (place : Scope → String → Scope) : List Node → List Node
  | [] => []
  | node :: nodes => node.lookIn place :: lookEachIn place nodes

end

variable {place : Scope → String → Scope}

@[simp]
theorem lookEachIn_eq_map (nodes : List Node) :
    lookEachIn place nodes = nodes.map (lookIn place) := by
  induction nodes with
  | nil => rfl
  | cons node nodes ih => rw [lookEachIn, ih, List.map_cons]

/-- Where the names have the same values, a body gives the same in other scopes. -/
theorem eval_lookIn {store : Store}
    (same : ∀ scope name, store.lookup (place scope name) name = store.lookup scope name)
    (invoke : Function → List Value → Except Failure Value) (args : List Value) (node : Node) :
    (node.lookIn place).eval store invoke args = node.eval store invoke args := by
  have each : ∀ nodes : List Node,
      (∀ node ∈ nodes, (node.lookIn place).eval store invoke args = node.eval store invoke args) →
      (nodes.map (lookIn place)).mapM (eval store invoke args) =
        nodes.mapM (eval store invoke args) := by
    intro nodes sameEach
    induction nodes with
    | nil => rfl
    | cons node nodes ih =>
        rw [List.forall_mem_cons] at sameEach
        rw [List.map_cons, List.mapM_cons, List.mapM_cons, sameEach.1, ih sameEach.2]
  induction node with
  | constant value => rfl
  | argument index => rfl
  | late scope name => simp only [lookIn, eval, same]
  | itself placeholder => rfl
  | call head args ihHead ihArgs =>
      simp only [lookIn, lookEachIn_eq_map, eval, evalEach_eq_mapM, ihHead, each args ihArgs]
  | sequence nodes ih =>
      simp only [lookIn, lookEachIn_eq_map, eval, evalEach_eq_mapM, each nodes ih]
  | branch test onTrue onFalse ihTest ihTrue ihFalse =>
      simp only [lookIn, eval, ihTest, ihTrue, ihFalse]
  | quoted node ih => simp only [lookIn, eval, ih]
  | list nodes ih =>
      simp only [lookIn, lookEachIn_eq_map, eval, evalEach_eq_mapM, each nodes ih]

end Node

/-- Looking names up in other scopes keeps the shape of bodies. -/
def relocated (place : Scope → String → Scope) : NodeChange where
  node := Node.lookIn place
  value := id
  constant := fun value => rfl
  constant? := by
    intro node
    cases node <;> simp [Node.lookIn, Node.constant?]
  call := fun head args => by simp [Node.lookIn]
  sequence := fun nodes => by simp [Node.lookIn]
  branch := fun test onTrue onFalse => rfl
  quoted := fun node => rfl
  list := fun nodes => by simp [Node.lookIn]
  ofLiteral := fun literal => rfl
  symbol := fun name => rfl
  listOf := fun values => by simp
  isTruthy := fun value => rfl

/-- A frame of its own inside a scope, in which the name of a forward reference stands for it. -/
def Store.ownFrame (store : Store) (scope : Scope) (placeholder : Placeholder) : Scope × Store :=
  let (inner, store) := store.addChild scope
  (inner, store.define inner placeholder.name (.function (.placeholder placeholder)))

/-- Where a name is looked up from inside of such a frame: every other name in the frame, and with
it in the scope around. -/
def Store.inOwnFrame (store : Store) (scope : Scope) (placeholder : Placeholder) (asked : Scope)
    (name : String) : Scope :=
  if asked = scope ∧ name ≠ placeholder.name then (store.ownFrame scope placeholder).1 else asked

section OwnFrame

variable {store : Store} {scope : Scope} (inStore : scope.InStore store) (placeholder : Placeholder)
  (params : List String)

include inStore

theorem Store.lookup?_ownFrame (name : String) :
    (store.ownFrame scope placeholder).2.lookup? (store.ownFrame scope placeholder).1 name =
      if name = placeholder.name then some (.function (.placeholder placeholder))
      else store.lookup? scope name := by
  have atOwn : ((store.ownFrame scope placeholder).2.frame store.frames.size).get? name =
      if name = placeholder.name then some (.function (.placeholder placeholder)) else none := by
    simp only [ownFrame, addChild, define, get?_frame_bind, frame_addFrame, size_frames_addFrame]
    simp [addFrame]
  have around : (store.ownFrame scope placeholder).2.lookup? scope name =
      store.lookup? scope name := by
    refine lookup?_congr name fun id idMem => ?_
    have isOld : id ≠ store.frames.size := Nat.ne_of_lt (inStore id idMem)
    simp only [ownFrame, addChild, define]
    rw [frame_bind _ (by simp [addFrame])]
    simp only [addFrame, isOld, if_false]
    exact (frame_addFrame store Assoc.empty id).trans (if_neg isOld)
  change ((store.frames.size :: scope.chain).findSome? fun id =>
    ((store.ownFrame scope placeholder).2.frame id).get? name) = _
  rw [List.findSome?_cons, atOwn]
  by_cases isOwn : name = placeholder.name
  · simp only [isOwn, if_true]
  · simp only [isOwn, if_false]
    exact around

theorem CompileContext.headReference_ownFrame (name : String) :
    headReference ⟨params, none, (store.ownFrame scope placeholder).1,
        (store.ownFrame scope placeholder).2⟩ name =
      (headReference ⟨params, some placeholder, scope, store⟩ name).lookIn
        (store.inOwnFrame scope placeholder) := by
  simp only [headReference, parameter?, selfNamed?, outerReference, Option.filter_none,
    Option.filter_some, store.lookup?_ownFrame inStore]
  split
  · rfl
  · by_cases isOwn : name = placeholder.name
    · simp [isOwn, Node.lookIn]
    · simp only [isOwn, Ne.symm isOwn, beq_iff_eq, if_false]
      cases store.lookup? scope name with
      | some value => rfl
      | none => simp [Node.lookIn, Store.inOwnFrame, isOwn]

theorem CompileContext.valueReference_ownFrame (name : String) :
    valueReference ⟨params, none, (store.ownFrame scope placeholder).1,
        (store.ownFrame scope placeholder).2⟩ name =
      (valueReference ⟨params, some placeholder, scope, store⟩ name).lookIn
        (store.inOwnFrame scope placeholder) := by
  rw [valueReference, valueReference, headReference_ownFrame inStore]
  cases headReference ⟨params, some placeholder, scope, store⟩ name with
  | constant value =>
      cases value with
      | function callee => cases callee <;> rfl
      | _ => rfl
  | call head args | sequence nodes | list nodes => simp [Node.lookIn]
  | _ => rfl

/-- With a frame for the own name, a body is compiled as it is with the own name told, but for the
scope in which it looks names up. -/
theorem Expr.compile_ownFrame (body : Expr) :
    body.compile ⟨params, none, (store.ownFrame scope placeholder).1,
        (store.ownFrame scope placeholder).2⟩ =
      (body.compile ⟨params, some placeholder, scope, store⟩).map
        (Node.lookIn (store.inOwnFrame scope placeholder)) :=
  ((relocated _).compile (CompileContext.headReference_ownFrame inStore placeholder params)
    (CompileContext.valueReference_ownFrame inStore placeholder params) body).1

omit inStore in
/-- As long as the frame binds no other name, both bodies give the same. -/
theorem Node.eval_inOwnFrame {later : Store}
    (onlyOwn : ∀ name, name ≠ placeholder.name →
      (later.frame store.frames.size).get? name = none)
    (invoke : Function → List Value → Except Failure Value) (args : List Value) (node : Node) :
    (node.lookIn (store.inOwnFrame scope placeholder)).eval later invoke args =
      node.eval later invoke args := by
  refine Node.eval_lookIn (fun asked name => ?_) invoke args node
  rw [Store.inOwnFrame]
  split
  · rename_i isAround
    rcases isAround with ⟨rfl, isOther⟩
    have sameValue : later.lookup? (store.ownFrame asked placeholder).1 name =
        later.lookup? asked name := by
      change ((store.frames.size :: asked.chain).findSome? fun id => (later.frame id).get? name) = _
      rw [List.findSome?_cons, onlyOwn name isOther]
      rfl
    rw [Store.lookup, Store.lookup, sameValue]
  · rfl

end OwnFrame

end ExactLisp
