import ExactLisp.Proofs.Functions
import ExactLisp.Proofs.Store

/-!
# What compiled bodies may hold

A law says which constants, which argument positions, which scopes and which forward references may
stand in a body. A forward reference stands in two places only: alone, where it is read as the
function it refers to, and at the head of a call. Compilation makes bodies that obey a law if the
context does (`Expr.obeys_of_compile`), and a body that obeys a law evaluates alike in two stores
that treat alike what the law allows (`Node.Obeys.coincide`).
-/

namespace ExactLisp

/-- What may stand in a body. -/
structure NodeLaw where
  constant : Value → Prop
  argument : Nat → Prop
  late : Scope → Prop
  itself : Placeholder → Prop

/-- Everything that stands in a body is allowed. -/
inductive Node.Obeys (law : NodeLaw) : Node → Prop where
  | constant {value : Value} (allowed : law.constant value) : Obeys law (.constant value)
  | argument {index : Nat} (allowed : law.argument index) : Obeys law (.argument index)
  | late {scope : Scope} {name : String} (allowed : law.late scope) :
      Obeys law (.variable scope name)
  | itself {placeholder : Placeholder} (allowed : law.itself placeholder) :
      Obeys law (.itself placeholder)
  | call {head : Node} {args : List Node} (obeysHead : Obeys law head)
      (obeysArgs : ∀ arg ∈ args, Obeys law arg) : Obeys law (.call head args)
  | callItself {placeholder : Placeholder} {args : List Node} (allowed : law.itself placeholder)
      (obeysArgs : ∀ arg ∈ args, Obeys law arg) :
      Obeys law (.call (.constant (.function (.placeholder placeholder))) args)
  | sequence {nodes : List Node} (each : ∀ node ∈ nodes, Obeys law node) :
      Obeys law (.sequence nodes)
  | branch {test onTrue onFalse : Node} (obeysTest : Obeys law test)
      (obeysTrue : Obeys law onTrue) (obeysFalse : Obeys law onFalse) :
      Obeys law (.branch test onTrue onFalse)
  | quoted {node : Node} (obeys : Obeys law node) : Obeys law (.quoted node)
  | list {nodes : List Node} (each : ∀ node ∈ nodes, Obeys law node) : Obeys law (.list nodes)

theorem Node.Obeys.mono {law more : NodeLaw} {node : Node} (obeys : node.Obeys law)
    (constant : ∀ value, law.constant value → more.constant value)
    (argument : ∀ index, law.argument index → more.argument index)
    (late : ∀ scope, law.late scope → more.late scope)
    (itself : ∀ placeholder, law.itself placeholder → more.itself placeholder) :
    node.Obeys more := by
  induction obeys with
  | constant allowed => exact .constant (constant _ allowed)
  | argument allowed => exact .argument (argument _ allowed)
  | late allowed => exact .late (late _ allowed)
  | itself allowed => exact .itself (itself _ allowed)
  | call _ _ ihHead ihArgs => exact .call ihHead ihArgs
  | callItself allowed _ ihArgs => exact .callItself (itself _ allowed) ihArgs
  | sequence _ ih => exact .sequence ih
  | branch _ _ _ ihTest ihTrue ihFalse => exact .branch ihTest ihTrue ihFalse
  | quoted _ ih => exact .quoted ih
  | list _ ih => exact .list ih

/-! ### Compilation -/

/-- Everything that compilation in a context may put into a body is allowed. -/
structure CompileContext.Lawful (context : CompileContext) (law : NodeLaw) : Prop where
  data : ∀ value : Value, value.functions = [] → law.constant value
  list : ∀ values : List Value, (∀ value ∈ values, law.constant value) →
    law.constant (.list values)
  parameter : ∀ name index, context.parameter? name = some index → law.argument index
  itself : ∀ placeholder, context.self? = some placeholder → law.itself placeholder
  known : ∀ name value, context.store.lookup? context.scope name = some value →
    (∀ placeholder, value ≠ .function (.placeholder placeholder)) → law.constant value
  forward : ∀ name placeholder, context.store.lookup? context.scope name =
    some (.function (.placeholder placeholder)) → law.itself placeholder
  late : law.late context.scope

section Compile

variable {context : CompileContext} {law : NodeLaw}

theorem Node.eq_constant_of_constant? {node : Node} {value : Value}
    (found : node.constant? = some value) : node = .constant value := by
  cases node with
  | constant held => simpa [Node.constant?] using found
  | _ => simp [Node.constant?] at found

theorem Node.eq_map_constant_of_mapM {nodes : List Node} {values : List Value}
    (found : nodes.mapM Node.constant? = some values) : nodes = values.map Node.constant := by
  induction nodes generalizing values with
  | nil =>
      simp only [List.mapM_nil, Option.pure_def, Option.some.injEq] at found
      subst found
      rfl
  | cons node nodes ih =>
      simp only [List.mapM_cons, Option.bind_eq_bind, Option.pure_def, Option.bind_eq_some_iff,
        Option.some.injEq] at found
      rcases found with ⟨value, isConstant, rest, restConstant, rfl⟩
      rw [List.map_cons, Node.eq_constant_of_constant? isConstant, ih restConstant]

theorem Node.Obeys.constant_allowed {value : Value} (obeys : (Node.constant value).Obeys law) :
    law.constant value := by
  cases obeys with
  | constant allowed => exact allowed

/-- What a name stands for in a body: a parameter, the function being defined, a value of the scope
around, or nothing yet. -/
theorem CompileContext.headReference_cases (context : CompileContext) (name : String) :
    (∃ index, context.parameter? name = some index ∧
      context.headReference name = .argument index) ∨
    context.parameter? name = none ∧
      ((∃ placeholder, context.selfNamed? name = some placeholder ∧
        context.headReference name = .constant (.function (.placeholder placeholder))) ∨
      context.selfNamed? name = none ∧
        ((∃ value, context.store.lookup? context.scope name = some value ∧
          context.headReference name = .constant value) ∨
        context.store.lookup? context.scope name = none ∧
          context.headReference name = .variable context.scope name)) := by
  rw [CompileContext.headReference]
  cases isParameter : context.parameter? name with
  | some index => exact Or.inl ⟨index, rfl, rfl⟩
  | none =>
      refine Or.inr ⟨rfl, ?_⟩
      cases isItself : context.selfNamed? name with
      | some placeholder => exact Or.inl ⟨placeholder, rfl, rfl⟩
      | none =>
          refine Or.inr ⟨rfl, ?_⟩
          simp only [CompileContext.outerReference]
          cases found : context.store.lookup? context.scope name with
          | some value => exact Or.inl ⟨value, rfl, rfl⟩
          | none => exact Or.inr ⟨rfl, rfl⟩

/-- A name at the head of a call is allowed there, or it is a forward reference that is. -/
theorem CompileContext.Lawful.headReference (lawful : context.Lawful law) (name : String) :
    (∃ placeholder, context.headReference name =
      .constant (.function (.placeholder placeholder)) ∧ law.itself placeholder) ∨
    (context.headReference name).Obeys law ∧ ∀ placeholder, context.headReference name ≠
      .constant (.function (.placeholder placeholder)) := by
  rcases context.headReference_cases name with ⟨index, isParameter, reference⟩ |
    ⟨_, ⟨placeholder, isItself, reference⟩ | ⟨_, ⟨value, found, reference⟩ | ⟨_, reference⟩⟩⟩
  · rw [reference]
    exact Or.inr ⟨.argument (lawful.parameter name index isParameter), by simp⟩
  · have isSelf := (Option.filter_eq_some_iff.mp isItself).1
    exact Or.inl ⟨placeholder, reference, lawful.itself placeholder isSelf⟩
  · rw [reference]
    by_cases isForward : ∃ placeholder, value = .function (.placeholder placeholder)
    · rcases isForward with ⟨placeholder, rfl⟩
      exact Or.inl ⟨placeholder, rfl, lawful.forward name placeholder found⟩
    · have notForward : ∀ placeholder, value ≠ .function (.placeholder placeholder) :=
        fun placeholder same => isForward ⟨placeholder, same⟩
      refine Or.inr ⟨.constant (lawful.known name value found notForward), ?_⟩
      intro placeholder same
      exact notForward placeholder (Node.constant.inj same)
  · rw [reference]
    exact Or.inr ⟨.late lawful.late, by simp⟩

theorem CompileContext.valueReference_eq {name : String}
    (notForward : ∀ placeholder, context.headReference name ≠
      .constant (.function (.placeholder placeholder))) :
    context.valueReference name = context.headReference name := by
  rw [CompileContext.valueReference]
  split
  · rename_i placeholder isForward
    exact absurd isForward (notForward placeholder)
  · rfl

theorem CompileContext.Lawful.valueReference (lawful : context.Lawful law) (name : String) :
    (context.valueReference name).Obeys law := by
  rcases lawful.headReference name with ⟨placeholder, isForward, allowed⟩ | ⟨obeys, notForward⟩
  · rw [CompileContext.valueReference, isForward]
    exact .itself allowed
  · rw [CompileContext.valueReference_eq notForward]
    exact obeys

theorem CompileContext.Lawful.call (lawful : context.Lawful law) {head : Expr} {node : Node}
    {args : List Node} (obeysHead : node.Obeys law) (obeysArgs : ∀ arg ∈ args, arg.Obeys law) :
    (Node.call (context.callHead head node) args).Obeys law := by
  cases head with
  | symbol name =>
      rw [CompileContext.callHead]
      rcases lawful.headReference name with ⟨placeholder, isForward, allowed⟩ | ⟨obeys, _⟩
      · rw [isForward]
        exact .callItself allowed obeysArgs
      · exact .call obeys obeysArgs
  | _ => exact .call obeysHead obeysArgs

theorem Node.obeys_foldSequence (lawful : context.Lawful law) {nodes : List Node}
    (each : ∀ node ∈ nodes, node.Obeys law) : (Node.foldSequence nodes).Obeys law := by
  rw [Node.foldSequence]
  split
  · rw [List.getLastD_eq_getLast?]
    cases last : nodes.getLast? with
    | none => exact .constant (lawful.data .nil rfl)
    | some node => exact each node (List.mem_of_getLast? last)
  · exact .sequence each

theorem Node.obeys_foldBranch {test onTrue onFalse : Node} (obeysTest : test.Obeys law)
    (obeysTrue : onTrue.Obeys law) (obeysFalse : onFalse.Obeys law) :
    (Node.foldBranch test onTrue onFalse).Obeys law := by
  rw [Node.foldBranch]
  split
  · split
    · exact obeysTrue
    · exact obeysFalse
  · exact .branch obeysTest obeysTrue obeysFalse

theorem Node.obeys_foldList (lawful : context.Lawful law) {nodes : List Node}
    (each : ∀ node ∈ nodes, node.Obeys law) : (Node.foldList nodes).Obeys law := by
  rw [Node.foldList]
  split
  · rename_i values constants
    rw [Node.eq_map_constant_of_mapM constants] at each
    apply Node.Obeys.constant
    apply lawful.list
    intro value valueMem
    exact (each _ (List.mem_map_of_mem valueMem)).constant_allowed
  · exact .list each

theorem Node.obeys_foldQuoted (lawful : context.Lawful law) {node : Node}
    (obeys : node.Obeys law) : (Node.foldQuoted node).Obeys law := by
  rw [Node.foldQuoted]
  split
  · rename_i value isConstant
    rw [Node.eq_constant_of_constant? isConstant] at obeys
    apply Node.Obeys.constant
    apply lawful.list
    intro item itemMem
    simp only [List.mem_cons, List.not_mem_nil, or_false] at itemMem
    rcases itemMem with rfl | rfl
    · exact lawful.data (.symbol "quote") rfl
    · exact obeys.constant_allowed
  · exact .quoted obeys

/-- Bodies obey the law that their context obeys. -/
theorem Expr.obeys_of_compile (lawful : context.Lawful law) (expr : Expr) :
    (∀ node, expr.compile context = .ok node → node.Obeys law) ∧
      ∀ node, expr.compileDatum context = .ok node → node.Obeys law := by
  have datum : ∀ value : Value, value.functions = [] → (Node.constant value).Obeys law :=
    fun value noFunctions => .constant (lawful.data value noFunctions)
  induction expr with
  | literal value =>
      have noFunctions : (Value.ofLiteral value).functions = [] := by cases value <;> rfl
      constructor
      · rintro node ⟨⟩
        exact datum _ noFunctions
      · rintro node ⟨⟩
        exact datum _ noFunctions
  | symbol name =>
      constructor
      · rintro node ⟨⟩
        exact lawful.valueReference name
      · rintro node ⟨⟩
        exact datum _ rfl
  | list items ih =>
      constructor
      · intro node compiled
        cases items with
        | nil =>
            cases compiled
            exact datum _ rfl
        | cons head args =>
            rw [compile, compileEach_eq_mapM] at compiled
            rcases bind_eq_ok_iff.mp compiled with ⟨headNode, headOk, compiled⟩
            rcases bind_eq_ok_iff.mp compiled with ⟨argNodes, argsOk, compiled⟩
            cases compiled
            apply lawful.call ((ih head List.mem_cons_self).1 headNode headOk)
            refine forall_of_mapM_eq_ok argsOk ?_
            intro arg argMem
            exact (ih arg (List.mem_cons_of_mem _ argMem)).1
      · intro node compiled
        rw [compileDatum, compileData_eq_mapM] at compiled
        rcases bind_eq_ok_iff.mp compiled with ⟨nodes, itemsOk, compiled⟩
        cases compiled
        apply Node.obeys_foldList lawful
        refine forall_of_mapM_eq_ok itemsOk ?_
        intro item itemMem
        exact (ih item itemMem).2
  | quote inner ih =>
      constructor
      · intro node compiled
        rw [compile] at compiled
        exact ih.2 node compiled
      · intro node compiled
        rw [compileDatum] at compiled
        rcases bind_eq_ok_iff.mp compiled with ⟨innerNode, innerOk, compiled⟩
        cases compiled
        exact Node.obeys_foldQuoted lawful (ih.2 innerNode innerOk)
  | unquote code ih =>
      constructor
      · rintro node ⟨⟩
      · intro node compiled
        rw [compileDatum] at compiled
        exact ih.1 node compiled
  | sequence forms ih =>
      constructor
      · intro node compiled
        rw [compile, compileEach_eq_mapM] at compiled
        rcases bind_eq_ok_iff.mp compiled with ⟨nodes, formsOk, compiled⟩
        cases compiled
        apply Node.obeys_foldSequence lawful
        refine forall_of_mapM_eq_ok formsOk ?_
        intro form formMem
        exact (ih form formMem).1
      · rintro node ⟨⟩
  | branch test onTrue onFalse ihTest ihTrue ihFalse =>
      constructor
      · intro node compiled
        rw [compile] at compiled
        rcases bind_eq_ok_iff.mp compiled with ⟨testNode, testOk, compiled⟩
        rcases bind_eq_ok_iff.mp compiled with ⟨trueNode, trueOk, compiled⟩
        rcases bind_eq_ok_iff.mp compiled with ⟨falseNode, falseOk, compiled⟩
        cases compiled
        exact Node.obeys_foldBranch (ihTest.1 testNode testOk) (ihTrue.1 trueNode trueOk)
          (ihFalse.1 falseNode falseOk)
      · rintro node ⟨⟩
  | define name value _ => constructor <;> rintro node ⟨⟩
  | set name value _ => constructor <;> rintro node ⟨⟩
  | lambda params body _ => constructor <;> rintro node ⟨⟩
  | defun name params body _ => constructor <;> rintro node ⟨⟩

end Compile

/-! ### Evaluation -/

/-- Two ways to run a body, in two stores and with two ways to call functions, treat alike what a
law allows. Values hold permitted functions only. -/
structure NodeLaw.Alike (law : NodeLaw) (permitted : Function → Prop) (fails : Failure → Prop)
    (args : List Value) (left right : Store)
    (invokeLeft invokeRight : Function → List Value → Except Failure Value) : Prop where
  harmless : ∀ cause, cause.isOperational → fails (.error cause)
  constant : ∀ value, law.constant value → value.All permitted
  argument : ∀ index, law.argument index → Coincide (Value.All permitted) fails
    (orFail (argumentAt args index)) (orFail (argumentAt args index))
  late : ∀ scope name, law.late scope → Coincide (Value.All permitted) fails
    (orFail (left.lookup scope name)) (orFail (right.lookup scope name))
  itself : ∀ placeholder, law.itself placeholder →
    Coincide (fun id => permitted (.closure id)) fails
      (orFail (left.resolve placeholder)) (orFail (right.resolve placeholder))
  invoke : ∀ callee values, permitted callee → (∀ value ∈ values, value.All permitted) →
    Coincide (Value.All permitted) fails (invokeLeft callee values) (invokeRight callee values)
  invokeItself : ∀ placeholder values, law.itself placeholder →
    (∀ value ∈ values, value.All permitted) →
    Coincide (Value.All permitted) fails (invokeLeft (.placeholder placeholder) values)
      (invokeRight (.placeholder placeholder) values)

/-- A body that obeys a law has one result in two settings that treat alike what the law allows. -/
theorem Node.Obeys.coincide {law : NodeLaw} {permitted : Function → Prop}
    {fails : Failure → Prop} {args : List Value} {left right : Store}
    {invokeLeft invokeRight : Function → List Value → Except Failure Value}
    (alike : law.Alike permitted fails args left right invokeLeft invokeRight) {node : Node}
    (obeys : node.Obeys law) :
    Coincide (Value.All permitted) fails (node.eval left invokeLeft args)
      (node.eval right invokeRight args) := by
  induction obeys with
  | constant allowed =>
      rw [Node.eval, Node.eval]
      exact .ok (alike.constant _ allowed)
  | argument allowed =>
      rw [Node.eval, Node.eval]
      exact alike.argument _ allowed
  | late allowed =>
      rw [Node.eval, Node.eval]
      exact alike.late _ _ allowed
  | itself allowed =>
      rw [Node.eval, Node.eval]
      exact (alike.itself _ allowed).bind fun id idPermitted => .ok (by simpa using idPermitted)
  | call _ _ ihHead ihArgs =>
      rw [Node.eval, Node.eval, Node.evalEach_eq_mapM, Node.evalEach_eq_mapM]
      apply ihHead.bind
      intro callee calleeAll
      apply (coincide_orFail (Value.coincide_asFunction alike.harmless "call" calleeAll)).bind
      intro callee calleePermitted
      apply (Coincide.mapM _ ihArgs).bind
      intro values valuesAll
      exact alike.invoke callee values calleePermitted valuesAll
  | @callItself placeholder operands allowed _ ihArgs =>
      simp only [Node.eval, Node.evalEach_eq_mapM]
      -- the head is a constant and a function, so only the operands are evaluated
      change Coincide _ fails
        (operands.mapM (Node.eval left invokeLeft args) >>= invokeLeft (.placeholder placeholder))
        (operands.mapM (Node.eval right invokeRight args) >>= invokeRight (.placeholder placeholder))
      apply (Coincide.mapM _ ihArgs).bind
      intro values valuesAll
      exact alike.invokeItself _ values allowed valuesAll
  | sequence _ ih =>
      rw [Node.eval, Node.eval, Node.evalEach_eq_mapM, Node.evalEach_eq_mapM]
      exact (Coincide.mapM _ ih).bind fun values valuesAll => .ok (Value.all_getLastD valuesAll)
  | branch _ _ _ ihTest ihTrue ihFalse =>
      rw [Node.eval, Node.eval]
      apply ihTest.bind
      intro value _
      split
      · exact ihTrue
      · exact ihFalse
  | quoted _ ih =>
      rw [Node.eval, Node.eval]
      exact ih.bind fun value valueAll => .ok (Value.all_quoted.mpr valueAll)
  | list _ ih =>
      rw [Node.eval, Node.eval, Node.evalEach_eq_mapM, Node.evalEach_eq_mapM]
      exact (Coincide.mapM _ ih).bind fun values valuesAll => .ok (Value.all_list.mpr valuesAll)

end ExactLisp
