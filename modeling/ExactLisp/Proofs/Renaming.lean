import Mathlib.Logic.Embedding.Basic
import ExactLisp.Proofs.Bodies

/-!
# Renaming identities

Frames, functions and cells are told apart by their identities, and nothing else depends on which
identities they have. One store mirrors another if it holds the same under other identities
(`Store.Mirrors`); it may hold anything else besides. Names, equalities, primitive operations and
calls have the same results in both, with identities renamed.
-/

namespace ExactLisp

/-- New identities for frames, functions and cells, different ones for different ones. -/
structure Renaming where
  frame : FrameId ↪ FrameId
  closure : ClosureId ↪ ClosureId
  cell : CellId ↪ CellId

/-! ### Values and bodies -/

def Placeholder.rename (aliases : Renaming) (placeholder : Placeholder) : Placeholder :=
  { placeholder with cell := aliases.cell placeholder.cell }

def Function.rename (aliases : Renaming) : Function → Function
  | builtin shared => builtin { shared with home := aliases.frame shared.home }
  | closure id => closure (aliases.closure id)
  | placeholder reference => placeholder (reference.rename aliases)

def Scope.rename (aliases : Renaming) (scope : Scope) : Scope :=
  ⟨aliases.frame scope.own, scope.outer.map aliases.frame⟩

namespace Value

mutual

/-- A value with the identities of its functions renamed. -/
def rename (aliases : Renaming) : Value → Value
  | function callee => function (callee.rename aliases)
  | list items => list (renameEach aliases items)
  | nil => nil
  | boolean value => boolean value
  | integer value => integer value
  | float value => float value
  | string value => string value
  | symbol name => symbol name

/-- Values with the identities of their functions renamed. -/
def renameEach (aliases : Renaming) : List Value → List Value
  | [] => []
  | value :: values => value.rename aliases :: renameEach aliases values

end

end Value

namespace Node

mutual

/-- A body with all identities in it renamed. -/
def rename (aliases : Renaming) : Node → Node
  | constant value => constant (value.rename aliases)
  | argument index => argument index
  | .variable scope name => .variable (scope.rename aliases) name
  | itself placeholder => itself (placeholder.rename aliases)
  | call head args => call (head.rename aliases) (renameEach aliases args)
  | sequence nodes => sequence (renameEach aliases nodes)
  | branch test onTrue onFalse =>
    branch (test.rename aliases) (onTrue.rename aliases) (onFalse.rename aliases)
  | quoted node => quoted (node.rename aliases)
  | list nodes => list (renameEach aliases nodes)

/-- Bodies with all identities in them renamed. -/
def renameEach (aliases : Renaming) : List Node → List Node
  | [] => []
  | node :: nodes => node.rename aliases :: renameEach aliases nodes

end

end Node

def Closure.rename (aliases : Renaming) (closure : Closure) : Closure :=
  { closure with body := closure.body.rename aliases }

section Trees

variable (aliases : Renaming)

@[simp]
theorem beq_alias (embedding : Nat ↪ Nat) (first second : Nat) :
    (embedding first == embedding second) = (first == second) := by
  rw [Bool.eq_iff_iff]
  simp

@[simp]
theorem Scope.chain_rename (scope : Scope) :
    (scope.rename aliases).chain = scope.chain.map aliases.frame := rfl

@[simp]
theorem Value.renameEach_eq_map (values : List Value) :
    renameEach aliases values = values.map (rename aliases) := by
  induction values with
  | nil => rfl
  | cons value values ih => rw [renameEach, ih, List.map_cons]

@[simp]
theorem Node.renameEach_eq_map (nodes : List Node) :
    renameEach aliases nodes = nodes.map (rename aliases) := by
  induction nodes with
  | nil => rfl
  | cons node nodes ih => rw [renameEach, ih, List.map_cons]

namespace Value

@[simp]
theorem rename_ofLiteral (literal : Literal) :
    (ofLiteral literal).rename aliases = ofLiteral literal := by
  cases literal <;> rfl

@[simp]
theorem rename_quoted (value : Value) :
    value.quoted.rename aliases = (value.rename aliases).quoted := by
  simp [quoted, rename]

@[simp]
theorem rename_toValue (number : Number) : number.toValue.rename aliases = number.toValue := by
  cases number <;> rfl

@[simp]
theorem isTruthy_rename (value : Value) : (value.rename aliases).isTruthy = value.isTruthy := by
  cases value <;> simp [rename, isTruthy]

theorem getLastD_rename (values : List Value) :
    (values.map (rename aliases)).getLastD nil = (values.getLastD nil).rename aliases := by
  rw [List.getLastD_eq_getLast?, List.getLastD_eq_getLast?, List.getLast?_map]
  cases values.getLast? <;> rfl

theorem asFunction_rename (value : Value) (operation : String) :
    (value.rename aliases).asFunction operation =
      (value.asFunction operation).map (Function.rename aliases) := by
  cases value <;> rfl

theorem asList_rename (value : Value) (operation : String) :
    (value.rename aliases).asList operation =
      (value.asList operation).map (List.map (rename aliases)) := by
  cases value <;> simp [rename, asList, kind, Except.map]

theorem asNonEmptyList_rename (value : Value) (operation : String) :
    (value.rename aliases).asNonEmptyList operation = (value.asNonEmptyList operation).map
      fun items => (items.1.rename aliases, items.2.map (rename aliases)) := by
  cases value with
  | list items => cases items <;> simp [rename, asNonEmptyList, Except.map]
  | _ => rfl

end Value

@[simp]
theorem Number.ofValue_rename (operation : String) (value : Value) :
    ofValue operation (value.rename aliases) = ofValue operation value := by
  cases value <;> rfl

@[simp]
theorem Number.ofValues_rename (operation : String) (values : List Value) :
    ofValues operation (values.map (Value.rename aliases)) = ofValues operation values := by
  simp [ofValues, List.mapM_map, Function.comp_def]

@[simp]
theorem Node.constant?_rename (node : Node) :
    (node.rename aliases).constant? = node.constant?.map (Value.rename aliases) := by
  cases node <;> rfl

end Trees

/-! ### Stores -/

/-- The right store holds what the left one holds, under other identities. What either store makes
next has identities that correspond. -/
structure Store.Mirrors (left : Store) (aliases : Renaming) (right : Store) : Prop where
  frames : ∀ id name, (right.frame (aliases.frame id)).get? name =
    ((left.frame id).get? name).map (Value.rename aliases)
  closures : ∀ id, right.closure? (aliases.closure id) =
    (left.closure? id).map (Closure.rename aliases)
  referents : ∀ placeholder : Placeholder, right.referent? (placeholder.rename aliases) =
    (left.referent? placeholder).map aliases.closure
  inFrames : ∀ id, aliases.frame id < right.frames.size ↔ id < left.frames.size
  nextClosure : ∀ count, aliases.closure (left.closures.size + count) =
    right.closures.size + count
  nextCell : ∀ count, aliases.cell (left.cells.size + count) = right.cells.size + count

namespace Store.Mirrors

variable {aliases : Renaming} {left right : Store}

/-! ### Reading -/

theorem binds (mirrors : left.Mirrors aliases right) (id : FrameId) (name : String) :
    right.binds (aliases.frame id) name = left.binds id name := by
  simp [Store.binds, Assoc.contains, mirrors.frames]

theorem lookup? (mirrors : left.Mirrors aliases right) (scope : Scope) (name : String) :
    right.lookup? (scope.rename aliases) name =
      (left.lookup? scope name).map (Value.rename aliases) := by
  simp only [Store.lookup?, Scope.chain_rename, List.findSome?_map, Function.comp_def,
    mirrors.frames]
  induction scope.chain with
  | nil => rfl
  | cons id chain ih =>
      rw [List.findSome?_cons, List.findSome?_cons, ih]
      cases (left.frame id).get? name <;> rfl

theorem lookup (mirrors : left.Mirrors aliases right) (scope : Scope) (name : String) :
    right.lookup (scope.rename aliases) name =
      (left.lookup scope name).map (Value.rename aliases) := by
  simp only [Store.lookup, mirrors.lookup? scope name]
  cases left.lookup? scope name <;> rfl

theorem owner? (mirrors : left.Mirrors aliases right) (chain : List FrameId) (name : String) :
    right.owner? (chain.map aliases.frame) name = (left.owner? chain name).map aliases.frame := by
  simp only [Store.owner?, List.find?_map, Function.comp_def, mirrors.binds]

theorem resolve (mirrors : left.Mirrors aliases right) (placeholder : Placeholder) :
    right.resolve (placeholder.rename aliases) =
      (left.resolve placeholder).map aliases.closure := by
  simp only [Store.resolve, mirrors.referents]
  cases left.referent? placeholder <;> rfl

theorem closureId? (mirrors : left.Mirrors aliases right) (callee : Function) :
    right.closureId? (callee.rename aliases) =
      (left.closureId? callee).map aliases.closure := by
  cases callee with
  | placeholder reference => exact mirrors.referents reference
  | _ => rfl

/-! ### Equality -/

theorem sameFunction (mirrors : left.Mirrors aliases right) (f g : Function) :
    right.sameFunction (f.rename aliases) (g.rename aliases) = left.sameFunction f g := by
  have sameClosure : ∀ f g : Function,
      right.sameClosure (f.rename aliases) (g.rename aliases) = left.sameClosure f g := by
    intro f g
    simp only [Store.sameClosure, mirrors.closureId?]
    cases left.closureId? f <;> cases left.closureId? g <;> simp
  cases f with
  | builtin first =>
      cases g with
      | builtin second => simp [Store.sameFunction, Function.rename]
      | closure id => exact sameClosure (.builtin first) (.closure id)
      | placeholder second => exact sameClosure (.builtin first) (.placeholder second)
  | placeholder first =>
      cases g with
      | placeholder second =>
          have sameReferent := sameClosure (.placeholder first) (.placeholder second)
          simp only [Function.rename, Placeholder.rename] at sameReferent
          simp only [Store.sameFunction, Function.rename, Placeholder.rename, beq_alias, sameReferent]
      | builtin second => exact sameClosure (.placeholder first) (.builtin second)
      | closure id => exact sameClosure (.placeholder first) (.closure id)
  | closure id => exact sameClosure (.closure id) g

theorem eqv (mirrors : left.Mirrors aliases right) (a b : Value) :
    (a.rename aliases).eqv right (b.rename aliases) = a.eqv left b := by
  cases a with
  | function f =>
      cases b with
      | function g => exact mirrors.sameFunction f g
      | _ => rfl
  | list items =>
      cases b with
      | list others => simp [Value.rename, Value.eqv]
      | _ => rfl
  | _ => cases b <;> rfl

theorem equal (mirrors : left.Mirrors aliases right) (a b : Value) :
    (a.rename aliases).equal right (b.rename aliases) = a.equal left b := by
  induction a generalizing b with
  | list items ih =>
      cases b with
      | list others =>
          simp only [Value.rename, Value.equal, Value.renameEach_eq_map]
          induction items generalizing others with
          | nil => cases others <;> rfl
          | cons item items ihItems =>
              cases others with
              | nil => rfl
              | cons other others =>
                  rw [List.forall_mem_cons] at ih
                  simp only [List.map_cons, Value.equalItems, ih.1, ihItems ih.2]
      | _ => rfl
  | function f =>
      cases b with
      | function g => exact mirrors.sameFunction f g
      | _ => rfl
  | _ => cases b <;> rfl

end Store.Mirrors

/-! ### Calls -/

section Calls

variable {aliases : Renaming} {left right : Store}

theorem Primitive.compareNumbers_rename (operation : String) (accepted : Ordering → Bool)
    (a b : Value) :
    compareNumbers operation accepted (a.rename aliases) (b.rename aliases) =
      (compareNumbers operation accepted a b).map (Value.rename aliases) := by
  simp only [compareNumbers, Number.ofValue_rename]
  cases Number.ofValue operation a <;> cases Number.ofValue operation b <;> rfl

theorem Primitive.compute_rename (mirrors : left.Mirrors aliases right) (primitive : Primitive)
    (args : List Value) :
    primitive.compute right (args.map (Value.rename aliases)) =
      (primitive.compute left args).map (Value.rename aliases) := by
  have numeric : ∀ {α : Type} (operands : Except EvalError α) (operation : α → Number),
      (do return (operation (← operands)).toValue) =
        (do return (operation (← operands)).toValue : Except EvalError Value).map
          (Value.rename aliases) := by
    intro α operands operation
    cases operands <;> simp [Except.map, pure, Except.pure, bind, Except.bind]
  -- an operation of fixed arity refuses other numbers of arguments on both sides
  cases primitive with
  | car =>
      rcases args with _ | ⟨value, _ | ⟨_, _⟩⟩
      · rfl
      · exact map_eq_map (value.asNonEmptyList_rename aliases "car") fun _ => rfl
      · simp [compute, Except.map]
  | cdr =>
      rcases args with _ | ⟨value, _ | ⟨_, _⟩⟩
      · rfl
      · exact map_eq_map (value.asNonEmptyList_rename aliases "cdr") fun _ => by simp [Value.rename]
      · simp [compute, Except.map]
  | cons =>
      rcases args with _ | ⟨head, _ | ⟨tail, _ | ⟨_, _⟩⟩⟩
      · rfl
      · rfl
      · exact map_eq_map (tail.asList_rename aliases "cons") fun _ => by simp [Value.rename]
      · simp [compute, Except.map]
  | list => simp [compute, Except.map, Value.rename]
  | length =>
      rcases args with _ | ⟨value, _ | ⟨_, _⟩⟩
      · rfl
      · exact map_eq_map (value.asList_rename aliases "length") fun _ => by simp [Value.rename]
      · simp [compute, Except.map]
  | add =>
      simp only [compute, Number.ofValues_rename]
      exact numeric _ _
  | subtract =>
      rcases args with _ | ⟨minuend, _ | ⟨subtrahend, _ | ⟨_, _⟩⟩⟩
      · rfl
      · simp only [List.map_cons, List.map_nil, compute, Number.ofValue_rename]
        exact numeric _ _
      · simp only [List.map_cons, List.map_nil, compute, Number.ofValue_rename]
        cases Number.ofValue "-" minuend with
        | error cause => rfl
        | ok number => exact numeric _ _
      · simp [compute, Except.map]
  | multiply =>
      simp only [compute, Number.ofValues_rename]
      exact numeric _ _
  | divide =>
      rcases args with _ | ⟨dividend, _ | ⟨divisor, _ | ⟨_, _⟩⟩⟩
      · rfl
      · rfl
      · simp only [List.map_cons, List.map_nil, compute, Number.ofValue_rename]
        cases Number.ofValue "/" dividend with
        | error cause => rfl
        | ok number =>
            cases Number.ofValue "/" divisor with
            | error cause => rfl
            | ok other => exact numeric _ _
      · simp [compute, Except.map]
  | greater | less | greaterEqual | lessEqual | numericEqual =>
      rcases args with _ | ⟨a, _ | ⟨b, _ | ⟨_, _⟩⟩⟩
      · rfl
      · rfl
      · simp only [List.map_cons, List.map_nil, compute, compareNumbers_rename]
      · simp [compute, Except.map]
  | same =>
      rcases args with _ | ⟨a, _ | ⟨b, _ | ⟨_, _⟩⟩⟩
      · rfl
      · rfl
      · simp [compute, Except.map, Value.rename, mirrors.eqv]
      · simp [compute, Except.map]
  | equal =>
      rcases args with _ | ⟨a, _ | ⟨b, _ | ⟨_, _⟩⟩⟩
      · rfl
      · rfl
      · simp [compute, Except.map, Value.rename, mirrors.equal]
      · simp [compute, Except.map]
  | negation =>
      rcases args with _ | ⟨value, _ | ⟨_, _⟩⟩
      · rfl
      · simp [compute, Except.map, Value.rename]
      · simp [compute, Except.map]
  | conjunction | disjunction => simp [compute, Except.map, Value.rename, Function.comp_def]
  | last => exact congrArg Except.ok (Value.getLastD_rename aliases args)
  | apply | map => simp [compute, Except.map]

theorem Primitive.splice_rename (values : List Value) :
    splice (values.map (Value.rename aliases)) = (splice values).map (Value.rename aliases) := by
  induction values with
  | nil => rfl
  | cons value values ih =>
      simp only [splice, List.map_cons, List.flatMap_cons, List.map_append] at ih ⊢
      rw [ih]
      cases value <;> simp [Value.rename]

theorem Primitive.rows_rename (lists : List (List Value)) :
    rows (lists.map (List.map (Value.rename aliases))) =
      (rows lists).map (List.map (Value.rename aliases)) := by
  have lengths : (lists.map (List.map (Value.rename aliases))).map List.length =
      lists.map List.length := by simp [Function.comp_def]
  simp only [rows, lengths, List.map_map]
  apply List.map_congr_left
  intro index _
  simp only [Function.comp_def, List.map_map]
  apply List.map_congr_left
  intro items _
  rw [List.getD_eq_getElem?_getD, List.getD_eq_getElem?_getD, List.getElem?_map]
  cases items[index]? <;> rfl

/-- Two ways to call functions do the same under other identities. -/
def Invokes (aliases : Renaming) (left right : Function → List Value → Except Failure Value) :
    Prop :=
  ∀ callee args, right (callee.rename aliases) (args.map (Value.rename aliases)) =
    (left callee args).map (Value.rename aliases)

variable {invokeLeft invokeRight : Function → List Value → Except Failure Value}

theorem Primitive.run_rename (mirrors : left.Mirrors aliases right)
    (invokes : Invokes aliases invokeLeft invokeRight) (primitive : Primitive)
    (args : List Value) :
    primitive.run right invokeRight (args.map (Value.rename aliases)) =
      (primitive.run left invokeLeft args).map (Value.rename aliases) := by
  fun_cases Primitive.run left invokeLeft primitive args with
  | case1 callee values =>
      apply bind_eq_map (orFail_eq_map (callee.asFunction_rename aliases "apply"))
      intro callee
      rw [splice_rename, invokes]
  | case2 callee values =>
      apply bind_eq_map (orFail_eq_map (callee.asFunction_rename aliases "map"))
      intro callee
      have asLists := @mapM_eq_map _ _ _ _ _ values (Value.asList "map") (Value.asList "map")
        (Value.rename aliases) (List.map (Value.rename aliases))
        fun value _ => value.asList_rename aliases "map"
      apply bind_eq_map (orFail_eq_map asLists)
      intro lists
      rw [rows_rename]
      apply bind_eq_map (mapM_eq_map fun row _ => invokes callee row)
      intro results
      simp [Value.rename, Except.map, pure, Except.pure]
  | case3 =>
      rename_i notApply notMap
      have computes : primitive.run right invokeRight (args.map (Value.rename aliases)) =
          orFail (primitive.compute right (args.map (Value.rename aliases))) := by
        cases args with
        | nil => cases primitive <;> rfl
        | cons arg args =>
            cases primitive with
            | apply => exact (notApply arg args rfl rfl).elim
            | map => exact (notMap arg args rfl rfl).elim
            | _ => rfl
      rw [computes, orFail_eq_map (compute_rename mirrors primitive args)]

theorem Node.eval_rename (mirrors : left.Mirrors aliases right)
    (invokes : Invokes aliases invokeLeft invokeRight) (args : List Value) (node : Node) :
    (node.rename aliases).eval right invokeRight (args.map (Value.rename aliases)) =
      (node.eval left invokeLeft args).map (Value.rename aliases) := by
  induction node with
  | constant value => rfl
  | argument index =>
      rw [Node.rename, Node.eval, Node.eval, argumentAt, argumentAt, List.getElem?_map]
      cases args[index]? <;> simp [orFail, Except.map, Except.mapError]
  | late scope name => exact orFail_eq_map (mirrors.lookup scope name)
  | itself placeholder =>
      apply bind_eq_map (orFail_eq_map (mirrors.resolve placeholder))
      intro id
      rfl
  | call head operands ihHead ihOperands =>
      simp only [Node.rename, Node.renameEach_eq_map, Node.eval, Node.evalEach_eq_mapM]
      apply bind_eq_map ihHead
      intro callee
      apply bind_eq_map (orFail_eq_map (callee.asFunction_rename aliases "call"))
      intro callee
      exact bind_eq_map (mapM_eq_map ihOperands) (invokes callee)
  | sequence nodes ih =>
      simp only [Node.rename, Node.renameEach_eq_map, Node.eval, Node.evalEach_eq_mapM]
      apply bind_eq_map (mapM_eq_map ih)
      intro values
      exact congrArg Except.ok (Value.getLastD_rename aliases values)
  | branch test onTrue onFalse ihTest ihTrue ihFalse =>
      simp only [Node.rename, Node.eval]
      apply bind_eq_map ihTest
      intro value
      rw [Value.isTruthy_rename]
      split
      · exact ihTrue
      · exact ihFalse
  | quoted node ih =>
      simp only [Node.rename, Node.eval]
      apply bind_eq_map ih
      intro value
      exact congrArg Except.ok (Value.rename_quoted aliases value).symm
  | list nodes ih =>
      simp only [Node.rename, Node.renameEach_eq_map, Node.eval, Node.evalEach_eq_mapM]
      apply bind_eq_map (mapM_eq_map ih)
      intro values
      simp [Value.rename, Except.map, pure, Except.pure]

theorem Store.Mirrors.runClosure (mirrors : left.Mirrors aliases right)
    (invokes : Invokes aliases invokeLeft invokeRight) (id : ClosureId) (args : List Value) :
    right.runClosure invokeRight (aliases.closure id) (args.map (Value.rename aliases)) =
      (left.runClosure invokeLeft id args).map (Value.rename aliases) := by
  rw [Store.runClosure, Store.runClosure, mirrors.closures]
  cases left.closure? id with
  | none => rfl
  | some closure =>
      simp only [Option.map_some, List.length_map, Closure.rename, Closure.title]
      split
      · exact closure.body.eval_rename mirrors invokes args
      · rfl

/-- A call has the same result under other identities. -/
theorem Store.Mirrors.call (mirrors : left.Mirrors aliases right) (depth : Nat) :
    Invokes aliases (left.call depth) (right.call depth) := by
  induction depth with
  | zero => exact fun _ _ => rfl
  | succ depth ih =>
      intro callee args
      cases callee with
      | builtin builtin =>
          simp only [Function.rename, Store.call, Store.runBuiltin, List.length_map]
          split
          · exact builtin.primitive.run_rename mirrors ih args
          · rfl
      | closure id => exact mirrors.runClosure ih id args
      | placeholder placeholder =>
          apply bind_eq_map (orFail_eq_map (mirrors.resolve placeholder))
          intro id
          exact mirrors.runClosure ih id args

end Calls

end ExactLisp
