import Mathlib.Data.List.Induction
import ExactLisp.Proofs.Grounded

/-!
# The meaning of compiled bodies

A compiled body means what the expression means when it is evaluated directly in a scope of three
layers: the parameters, then every name that had a value when the body was compiled, with that
value, then the scope of the function as it is at the time of the call. The body of a named function
has its own name in the second layer, bound to the finished function.

Folding constants does not change what a node evaluates to, a name evaluates to what the layers show
for it, and everything else follows the recursion of compilation (`Expr.gives_of_compile`).
-/

namespace ExactLisp

/-! ### Folding -/

namespace Node

variable (store : Store) (invoke : Function → List Value → Except Failure Value)
  (args : List Value)

theorem mapM_eval_constants (values : List Value) :
    (values.map Node.constant).mapM (Node.eval store invoke args) = .ok values := by
  induction values with
  | nil => rfl
  | cons value values ih =>
      rw [List.map_cons, List.mapM_cons, ih, Node.eval]
      rfl

theorem eq_map_constant_of_all {nodes : List Node} (all : nodes.all Node.isConstant = true) :
    ∃ values : List Value, nodes = values.map Node.constant := by
  induction nodes with
  | nil => exact ⟨[], rfl⟩
  | cons node nodes ih =>
      rw [List.all_cons, Bool.and_eq_true] at all
      rcases Option.isSome_iff_exists.mp all.1 with ⟨value, isConstant⟩
      rcases ih all.2 with ⟨values, rfl⟩
      exact ⟨value :: values, by rw [List.map_cons, Node.eq_constant_of_constant? isConstant]⟩

theorem eval_foldSequence (nodes : List Node) :
    (Node.foldSequence nodes).eval store invoke args =
      (Node.sequence nodes).eval store invoke args := by
  rw [Node.foldSequence]
  split
  · rename_i allConstant
    rcases eq_map_constant_of_all allConstant with ⟨values, rfl⟩
    rw [List.getLastD_map, Node.eval, Node.eval, Node.evalEach_eq_mapM, mapM_eval_constants]
    rfl
  · rfl

theorem eval_foldBranch (test onTrue onFalse : Node) :
    (Node.foldBranch test onTrue onFalse).eval store invoke args =
      (Node.branch test onTrue onFalse).eval store invoke args := by
  rw [Node.foldBranch]
  split
  · rename_i value isConstant
    rw [Node.eq_constant_of_constant? isConstant, Node.eval, Node.eval]
    change _ = if value.isTruthy then _ else _
    split <;> rfl
  · rfl

theorem eval_foldList (nodes : List Node) :
    (Node.foldList nodes).eval store invoke args = (Node.list nodes).eval store invoke args := by
  rw [Node.foldList]
  split
  · rename_i values constants
    rw [Node.eq_map_constant_of_mapM constants, Node.eval, Node.eval, Node.evalEach_eq_mapM,
      mapM_eval_constants]
    rfl
  · rfl

theorem eval_foldQuoted (node : Node) :
    (Node.foldQuoted node).eval store invoke args = (Node.quoted node).eval store invoke args := by
  rw [Node.foldQuoted]
  split
  · rename_i value isConstant
    rw [Node.eq_constant_of_constant? isConstant, Node.eval, Node.eval, Node.eval]
    rfl
  · rfl

end Node

/-! ### Evaluations that leave the store alone -/

namespace Evaluation

variable {α β : Type}

/-- An evaluation has a result, and leaves the store as it is. -/
def Gives (run : Evaluation α) (store : Store) (result : Except Failure α) : Prop :=
  run.outcome store = (result, store)

theorem Gives.bind {run : Evaluation α} {next : α → Evaluation β} {store : Store}
    {result : Except Failure α} {rest : α → Except Failure β} (first : run.Gives store result)
    (givesRest : ∀ value, (next value).Gives store (rest value)) :
    Gives (run >>= next) store (result >>= rest) := by
  cases result with
  | error failure => exact outcome_bind_error first
  | ok value =>
      rw [Gives, outcome_bind_ok first]
      exact givesRest value

theorem Gives.mapM {store : Store} {args : List Value}
    {invoke : Function → List Value → Except Failure Value} {here : Store}
    {compile : Expr → Except EvalError Node} {run : Expr → Evaluation Value} {exprs : List Expr}
    {nodes : List Node} (compiled : exprs.mapM compile = .ok nodes)
    (each : ∀ expr ∈ exprs, ∀ node, compile expr = .ok node →
      (run expr).Gives here (node.eval store invoke args)) :
    Gives (exprs.mapM run) here (nodes.mapM (Node.eval store invoke args)) := by
  induction exprs generalizing nodes with
  | nil =>
      cases compiled
      rfl
  | cons expr exprs ih =>
      rw [List.mapM_cons] at compiled
      rcases bind_eq_ok_iff.mp compiled with ⟨node, nodeOk, compiled⟩
      rcases bind_eq_ok_iff.mp compiled with ⟨rest, restOk, compiled⟩
      cases compiled
      rw [List.mapM_cons, List.mapM_cons]
      apply (each expr List.mem_cons_self node nodeOk).bind
      intro value
      have givesRest := ih restOk fun other otherMem => each other (List.mem_cons_of_mem _ otherMem)
      exact givesRest.bind fun values => rfl

end Evaluation

open Evaluation

/-- If names evaluate to what a scope shows for them, bodies evaluate to what their expressions do
in that scope. -/
theorem Expr.gives_of_compile {context : CompileContext} {store direct : Store} {scope : Scope}
    {args : List Value} {invoke : Function → List Value → Except Failure Value}
    {invokeDirect : Store → Function → List Value → Except Failure Value}
    (names : ∀ name, orFail (direct.lookup scope name) =
      (context.valueReference name).eval store invoke args)
    (heads : ∀ name operands,
      (Node.call (context.headReference name) operands).eval store invoke args =
        (Node.call (context.valueReference name) operands).eval store invoke args)
    (calls : invokeDirect direct = invoke) (expr : Expr) :
    (∀ node, expr.compile context = .ok node →
      (expr.evalWith invokeDirect scope).Gives direct (node.eval store invoke args)) ∧
    ∀ node, expr.compileDatum context = .ok node →
      (expr.evalDatum invokeDirect scope).Gives direct (node.eval store invoke args) := by
  induction expr with
  | literal value =>
      constructor
      · rintro node ⟨⟩
        rw [evalWith, Node.eval]
        rfl
      · rintro node ⟨⟩
        rw [evalDatum, Node.eval]
        rfl
  | symbol name =>
      constructor
      · rintro node ⟨⟩
        rw [evalWith, Gives, outcome_read, names]
      · rintro node ⟨⟩
        rw [evalDatum, Node.eval]
        rfl
  | list items ih =>
      constructor
      · intro node compiled
        cases items with
        | nil =>
            cases compiled
            rw [evalWith, Node.eval]
            rfl
        | cons head operands =>
            rw [compile, compileEach_eq_mapM] at compiled
            rcases bind_eq_ok_iff.mp compiled with ⟨headNode, headOk, compiled⟩
            rcases bind_eq_ok_iff.mp compiled with ⟨operandNodes, operandsOk, compiled⟩
            cases compiled
            -- the head is compiled in its own way only if it is a name
            have asValue :
                (Node.call (context.callHead head headNode) operandNodes).eval store invoke args =
                  (Node.call headNode operandNodes).eval store invoke args := by
              cases head with
              | symbol name =>
                  cases headOk
                  exact heads name operandNodes
              | _ => rfl
            rw [asValue, evalWith, Node.eval, evalEach_eq_mapM, Node.evalEach_eq_mapM]
            apply ((ih head List.mem_cons_self).1 headNode headOk).bind
            intro callee
            apply Gives.bind (outcome_ofExcept _ direct)
            intro callee
            apply Gives.bind
            · apply Gives.mapM operandsOk
              intro operand operandMem
              exact (ih operand (List.mem_cons_of_mem _ operandMem)).1
            · intro values
              rw [Gives, outcome_read, calls]
      · intro node compiled
        rw [compileDatum, compileData_eq_mapM] at compiled
        rcases bind_eq_ok_iff.mp compiled with ⟨nodes, itemsOk, compiled⟩
        cases compiled
        rw [Node.eval_foldList, evalDatum, Node.eval, evalData_eq_mapM, Node.evalEach_eq_mapM]
        apply Gives.bind
        · apply Gives.mapM itemsOk
          intro item itemMem
          exact (ih item itemMem).2
        · intro values
          rfl
  | quote inner ih =>
      constructor
      · intro node compiled
        rw [compile] at compiled
        rw [evalWith]
        exact ih.2 node compiled
      · intro node compiled
        rw [compileDatum] at compiled
        rcases bind_eq_ok_iff.mp compiled with ⟨innerNode, innerOk, compiled⟩
        cases compiled
        rw [Node.eval_foldQuoted, evalDatum, Node.eval]
        exact (ih.2 innerNode innerOk).bind fun value => rfl
  | unquote code ih =>
      constructor
      · rintro node ⟨⟩
      · intro node compiled
        rw [compileDatum] at compiled
        rw [evalDatum]
        exact ih.1 node compiled
  | sequence forms ih =>
      constructor
      · intro node compiled
        rw [compile, compileEach_eq_mapM] at compiled
        rcases bind_eq_ok_iff.mp compiled with ⟨nodes, formsOk, compiled⟩
        cases compiled
        rw [Node.eval_foldSequence, evalWith, Node.eval, evalEach_eq_mapM, Node.evalEach_eq_mapM]
        apply Gives.bind
        · apply Gives.mapM formsOk
          intro form formMem
          exact (ih form formMem).1
        · intro values
          rfl
      · rintro node ⟨⟩
  | branch test onTrue onFalse ihTest ihTrue ihFalse =>
      constructor
      · intro node compiled
        rw [compile] at compiled
        rcases bind_eq_ok_iff.mp compiled with ⟨testNode, testOk, compiled⟩
        rcases bind_eq_ok_iff.mp compiled with ⟨trueNode, trueOk, compiled⟩
        rcases bind_eq_ok_iff.mp compiled with ⟨falseNode, falseOk, compiled⟩
        cases compiled
        rw [Node.eval_foldBranch, evalWith, Node.eval]
        apply (ihTest.1 testNode testOk).bind
        intro value
        split
        · exact ihTrue.1 trueNode trueOk
        · exact ihFalse.1 falseNode falseOk
      · rintro node ⟨⟩
  | define name value _ => constructor <;> rintro node ⟨⟩
  | set name value _ => constructor <;> rintro node ⟨⟩
  | lambda params body _ => constructor <;> rintro node ⟨⟩
  | defun name params body _ => constructor <;> rintro node ⟨⟩

/-! ### The layers of a scope -/

/-- The names that have a value in a scope, with their values. -/
def Store.snapshot (store : Store) (scope : Scope) : Bindings :=
  ⟨(store.names scope).filterMap fun name => (store.lookup? scope name).map (name, ·)⟩

/-- Parameters bound to arguments; of several with one name, the last. -/
def argumentBindings (params : List String) (args : List Value) : Bindings :=
  (params.zip args).foldl (fun bindings entry => bindings.insert entry.1 entry.2) .empty

/-- The scope in which the body of a function is evaluated directly: a frame for the parameters, a
frame for the names that are fixed, and the scope of the function. -/
def Store.enter (store : Store) (scope : Scope) (fixed parameters : Bindings) : Scope × Store :=
  let (fixedFrame, store) := store.addFrame fixed
  let (parameterFrame, store) := store.addFrame parameters
  (⟨parameterFrame, fixedFrame :: scope.chain⟩, store)

theorem Assoc.get?_filterMap {names : List String} {value? : String → Option Value}
    (name : String) :
    Assoc.get? ⟨names.filterMap fun name => (value? name).map (name, ·)⟩ name =
      if name ∈ names then value? name else none := by
  simp only [Assoc.get?]
  induction names with
  | nil => rfl
  | cons first names ih =>
      cases found : value? first with
      | none =>
          rw [List.filterMap_cons_none (by simp [found]), ih]
          by_cases same : name = first
          · subst same
            simp [found]
          · simp [same]
      | some value =>
          rw [List.filterMap_cons_some (by rw [found]; rfl), Assoc.findEntry, ih]
          by_cases same : first = name
          · subst same
            simp [found]
          · simp [same, Ne.symm same]

theorem Store.get?_snapshot (store : Store) (scope : Scope) (name : String) :
    (store.snapshot scope).get? name = store.lookup? scope name := by
  rw [Store.snapshot, Assoc.get?_filterMap]
  split
  · rfl
  · rename_i absent
    rw [mem_names_iff, Bool.not_eq_true, Option.isSome_eq_false_iff,
      Option.isNone_iff_eq_none] at absent
    exact absent.symm

/-- A parameter is bound to the argument at its position, and nothing else is bound. -/
theorem get?_argumentBindings (context : CompileContext) {args : List Value}
    (count : args.length = context.params.length) (name : String) :
    match context.parameter? name with
    | some index => index < args.length ∧
        (argumentBindings context.params args).get? name = args[index]?
    | none => (argumentBindings context.params args).get? name = none := by
  simp only [CompileContext.parameter?]
  generalize context.params = params at count ⊢
  -- from the right, because the last of several parameters with one name counts
  induction params using List.reverseRecOn generalizing args with
  | nil => rfl
  | append_singleton params last ih =>
      rcases List.eq_nil_or_concat args with rfl | ⟨earlier, value, rfl⟩
      · simp at count
      · rw [List.concat_eq_append] at count ⊢
        have countEarlier : earlier.length = params.length := by simpa using count
        have ihEarlier := ih countEarlier
        have bindings : argumentBindings (params ++ [last]) (earlier ++ [value]) =
            (argumentBindings params earlier).insert last value := by
          simp only [argumentBindings]
          rw [List.zip_append countEarlier.symm, List.foldl_append]
          rfl
        have positions : (params ++ [last]).zipIdx.reverse =
            (last, params.length) :: params.zipIdx.reverse := by
          rw [List.zipIdx_append]
          simp
        rw [bindings, positions, List.find?_cons]
        by_cases same : last = name
        · subst same
          simp [Assoc.get?_insert, countEarlier]
        · simp only [beq_eq_false_iff_ne.mpr same, Assoc.get?_insert, if_neg (Ne.symm same)]
          split
          · rename_i index found
            rw [found] at ihEarlier
            have inside := ihEarlier.1
            rw [List.getElem?_append_left inside]
            exact ⟨by rw [List.length_append]; omega, ihEarlier.2⟩
          · rename_i absent
            rw [absent] at ihEarlier
            exact ihEarlier

theorem Store.covers_enter (store : Store) (scope : Scope) (fixed parameters : Bindings) :
    (store.enter scope fixed parameters).2.Covers store := by
  have covers : store.Covers store := ⟨rfl, rfl, fun _ _ => rfl⟩
  have coversFixed := covers.addFrame fixed (Nat.le_refl _)
  exact coversFixed.addFrame parameters (by simp)

/-- A new frame around which a scope lies is looked at first. -/
theorem Store.lookup?_addFrame {store : Store} {scope : Scope} (inStore : scope.InStore store)
    (bindings : Bindings) (name : String) :
    (store.addFrame bindings).2.lookup? ⟨store.frames.size, scope.chain⟩ name =
      (bindings.get? name).or (store.lookup? scope name) := by
  have outside : (store.addFrame bindings).2.lookup? scope name = store.lookup? scope name := by
    apply lookup?_congr
    intro id idMem
    rw [frame_addFrame, if_neg (Nat.ne_of_lt (inStore id idMem))]
  have own : (store.addFrame bindings).2.frame store.frames.size = bindings := by
    rw [frame_addFrame, if_pos rfl]
  rw [← outside, lookup?, Scope.chain, List.findSome?_cons, own, lookup?]
  cases bindings.get? name <;> rfl

/-- The layers are seen from the inside out. -/
theorem Store.lookup?_enter {store : Store} {scope : Scope} (inStore : scope.InStore store)
    (fixed parameters : Bindings) (name : String) :
    (store.enter scope fixed parameters).2.lookup? (store.enter scope fixed parameters).1 name =
      ((parameters.get? name).or (fixed.get? name)).or (store.lookup? scope name) := by
  have inFixed := inStore_addFrame fixed inStore
  rw [Option.or_assoc, ← lookup?_addFrame inStore, ← lookup?_addFrame inFixed]
  rfl

/-- A forward reference is called as the function that it refers to, to every depth. -/
theorem Store.call_placeholder {store : Store} {placeholder : Placeholder} {id : ClosureId}
    (refers : store.referent? placeholder = some id) (depth : Nat) (args : List Value) :
    store.call depth (.placeholder placeholder) args = store.call depth (.closure id) args := by
  cases depth with
  | zero => rfl
  | succ depth =>
      rw [call, call, resolve, refers]
      rfl

/-! ### Names -/

/-- What is fixed for a body: its own name is the finished function, and every other name has the
value that it had when the body was compiled. No such value is a forward reference. -/
structure CompileContext.Fixes (context : CompileContext) (store : Store) (fixed : Bindings) :
    Prop where
  own : ∀ name placeholder, context.selfNamed? name = some placeholder →
    ∃ id, store.referent? placeholder = some id ∧ fixed.get? name = some (.function (.closure id))
  others : ∀ name, context.selfNamed? name = none →
    fixed.get? name = context.store.lookup? context.scope name
  clear : ∀ name placeholder,
    context.store.lookup? context.scope name ≠ some (.function (.placeholder placeholder))

section Names

variable {context : CompileContext} {store : Store} {fixed : Bindings}

/-- A name is a forward reference in a body only if it is the function's own name. -/
theorem CompileContext.Fixes.cases (fixes : context.Fixes store fixed) (name : String) :
    (∃ placeholder id, context.parameter? name = none ∧
      context.headReference name = .constant (.function (.placeholder placeholder)) ∧
      context.valueReference name = .itself placeholder ∧
      store.referent? placeholder = some id ∧ fixed.get? name = some (.function (.closure id))) ∨
    context.valueReference name = context.headReference name ∧
      ((∃ index, context.parameter? name = some index ∧
        context.headReference name = .argument index) ∨
      (∃ value, context.parameter? name = none ∧ fixed.get? name = some value ∧
        context.headReference name = .constant value) ∨
      context.parameter? name = none ∧ fixed.get? name = none ∧
        context.headReference name = .variable context.scope name) := by
  rcases context.headReference_cases name with ⟨index, isParameter, reference⟩ |
    ⟨notParameter, ⟨placeholder, isItself, reference⟩ |
      ⟨notItself, ⟨value, found, reference⟩ | ⟨absent, reference⟩⟩⟩
  · refine Or.inr ⟨?_, Or.inl ⟨index, isParameter, reference⟩⟩
    exact context.valueReference_eq (by simp [reference])
  · rcases fixes.own name placeholder isItself with ⟨id, refers, isFixed⟩
    refine Or.inl ⟨placeholder, id, notParameter, reference, ?_, refers, isFixed⟩
    rw [CompileContext.valueReference, reference]
  · have isFixed : fixed.get? name = some value := by rw [fixes.others name notItself, found]
    refine Or.inr ⟨?_, Or.inr (Or.inl ⟨value, notParameter, isFixed, reference⟩)⟩
    apply context.valueReference_eq
    rintro placeholder isForward
    rw [reference] at isForward
    exact fixes.clear name placeholder (Node.constant.inj isForward ▸ found)
  · have notFixed : fixed.get? name = none := by rw [fixes.others name notItself, absent]
    refine Or.inr ⟨?_, Or.inr (Or.inr ⟨notParameter, notFixed, reference⟩)⟩
    exact context.valueReference_eq (by simp [reference])

/-- A name read as a value is what the layers show for it. -/
theorem CompileContext.Fixes.eval_valueReference (fixes : context.Fixes store fixed)
    (inStore : context.scope.InStore store) {args : List Value}
    (count : args.length = context.params.length)
    (invoke : Function → List Value → Except Failure Value) (name : String) :
    let entered := store.enter context.scope fixed (argumentBindings context.params args)
    orFail (entered.2.lookup entered.1 name) =
      (context.valueReference name).eval store invoke args := by
  intro entered
  have layers := Store.lookup?_enter inStore fixed (argumentBindings context.params args) name
  have bound := get?_argumentBindings context count name
  rw [Store.lookup, layers]
  rcases fixes.cases name with ⟨placeholder, id, notParameter, _, reference, refers, isFixed⟩ |
    ⟨same, ⟨index, isParameter, reference⟩ | ⟨value, notParameter, isFixed, reference⟩ |
      ⟨notParameter, notFixed, reference⟩⟩
  · rw [notParameter] at bound
    rw [reference, bound, isFixed, Node.eval, Store.resolve, refers]
    rfl
  · rw [isParameter] at bound
    rcases bound with ⟨inside, bound⟩
    rw [same, reference, bound, Node.eval, argumentAt, List.getElem?_eq_getElem inside]
    rfl
  · rw [notParameter] at bound
    rw [same, reference, bound, isFixed, Node.eval]
    rfl
  · rw [notParameter] at bound
    rw [same, reference, bound, notFixed, Node.eval]
    rfl

/-- At the head of a call it makes no difference that a name may stay a forward reference. -/
theorem CompileContext.Fixes.eval_headReference (fixes : context.Fixes store fixed)
    (args : List Value) (depth : Nat) (name : String) (operands : List Node) :
    (Node.call (context.headReference name) operands).eval store (store.call depth) args =
      (Node.call (context.valueReference name) operands).eval store (store.call depth) args := by
  rcases fixes.cases name with ⟨placeholder, id, _, asHead, asValue, refers, _⟩ | ⟨same, _⟩
  · have sameCall : store.call depth (.placeholder placeholder) = store.call depth (.closure id) :=
      funext fun values => Store.call_placeholder refers depth values
    simp only [asHead, asValue, Node.eval, Store.resolve, refers]
    change _ >>= store.call depth (.placeholder placeholder) =
      _ >>= store.call depth (.closure id)
    rw [sameCall]
  · rw [same]

end Names

/-! ### Bodies -/

/-- On arguments for all parameters, a body gives what an expression gives when it is evaluated
directly in the layers, and that evaluation leaves the store alone. -/
def Node.Means (node : Node) (body : Expr) (store : Store) (scope : Scope) (params : List String)
    (fixed : Bindings) : Prop :=
  ∀ args : List Value, args.length = params.length → ∀ depth,
    let entered := store.enter scope fixed (argumentBindings params args)
    (body.eval depth entered.1).outcome entered.2 =
      (node.eval store (store.call depth) args, entered.2)

theorem Expr.means_of_compile {context : CompileContext} {store : Store} {fixed : Bindings}
    (fixes : context.Fixes store fixed) (inStore : context.scope.InStore store)
    (grounded : store.Grounded) {body : Expr} {node : Node}
    (compiled : body.compile context = .ok node) :
    node.Means body store context.scope context.params fixed := by
  intro args count depth entered
  have names := fixes.eval_valueReference inStore count (store.call depth)
  have heads := fixes.eval_headReference args depth
  have calls : entered.2.call depth = store.call depth :=
    (store.covers_enter context.scope fixed _).call_eq grounded depth
  exact (body.gives_of_compile names heads calls).1 node compiled

/-- In the body of a named function the own name is the finished function, and every other name that
had a value keeps it. -/
theorem DefunMade.means {scope : Scope} {name : String} {params : List String} {body : Expr}
    {store made : Store} {value : Value} (done : DefunMade scope name params body store value made)
    (grounded : store.Grounded) (inStore : scope.InStore store)
    (clear : ∀ asked placeholder,
      store.lookup? scope asked ≠ some (.function (.placeholder placeholder))) :
    ∃ closure, closure.arity = params.length ∧
      ∀ later, Store.Later made later →
        later.closure? store.closures.size = some closure ∧
        closure.body.Means body later scope params ((store.snapshot scope).insert name value) := by
  rcases done.compiled with ⟨node, compiled, closures⟩
  have isNew : made.closure? store.closures.size = some ⟨some name, params.length, node⟩ := by
    rw [closures, if_pos rfl]
  have madeLater : Store.Later store made := .single (.effect inStore (.defun trivial done))
  refine ⟨⟨some name, params.length, node⟩, rfl, ?_⟩
  intro later path
  refine ⟨path.grows.closures _ _ isNew, ?_⟩
  have pathLater : Store.Later store later := madeLater.trans path
  have inLater : scope.InStore later := pathLater.grows.inStore inStore
  have groundedLater : later.Grounded := pathLater.grounded grounded
  apply Expr.means_of_compile ?_ inLater groundedLater compiled
  have sameLookup : ∀ asked,
      (store.addPlaceholder name).2.lookup? scope asked = store.lookup? scope asked :=
    fun asked => rfl
  refine ⟨?_, ?_, clear⟩
  · intro asked placeholder isItself
    rcases Option.filter_eq_some_iff.mp isItself with ⟨isSelf, sameName⟩
    cases isSelf
    have refers : made.referent? ⟨name, store.cells.size⟩ = some store.closures.size := by
      rw [done.referent?_eq, if_pos rfl]
    refine ⟨store.closures.size, path.grows.cells _ _ refers, ?_⟩
    rw [Assoc.get?_insert, if_pos (beq_iff_eq.mp sameName).symm, done.value_eq]
  · intro asked notItself
    have differs : asked ≠ name := by
      rintro rfl
      simp [CompileContext.selfNamed?] at notItself
    rw [Assoc.get?_insert, if_neg differs, Store.get?_snapshot, sameLookup]

/-- Unless a parameter has its name, a named function sees itself under its name. -/
theorem Store.lookup?_enter_own {store : Store} {scope : Scope} (inStore : scope.InStore store)
    (fixed : Bindings) {name : String} (value : Value) {params : List String} {args : List Value}
    (notParameter : name ∉ params) (count : args.length = params.length) :
    let entered := store.enter scope (fixed.insert name value) (argumentBindings params args)
    entered.2.lookup? entered.1 name = some value := by
  intro entered
  have absent : CompileContext.parameter? ⟨params, none, scope, store⟩ name = none := by
    rw [CompileContext.parameter?, Option.map_eq_none_iff, List.find?_eq_none]
    rintro ⟨param, position⟩ paramMem isName
    have inParams := List.fst_mem_of_mem_zipIdx (List.mem_reverse.mp paramMem)
    exact notParameter (beq_iff_eq.mp isName ▸ inParams)
  have bound := get?_argumentBindings ⟨params, none, scope, store⟩ count name
  rw [absent] at bound
  rw [Store.lookup?_enter inStore, bound, Assoc.get?_insert, if_pos rfl]
  rfl

theorem DefunMade.lookup?_eq {scope : Scope} {name : String} {params : List String} {body : Expr}
    {store made : Store} {value : Value} (done : DefunMade scope name params body store value made)
    (inStore : scope.InStore store) : made.lookup? scope name = some value := by
  have ownFrame : (made.frame scope.own).get? name = some value := by
    have frameEq : made.frame scope.own = (store.define scope name value).frame scope.own := by
      simp only [Store.frame, done.frames_eq]
    rw [frameEq, Store.define, Store.get?_frame_bind]
    exact if_pos ⟨rfl, rfl, inStore scope.own List.mem_cons_self⟩
  rw [Store.lookup?, Scope.chain, List.findSome?_cons, ownFrame]

/-- Compiled bodies mean what direct evaluation means. A body that was compiled in a scope without
forward references gives, whatever has become of the store since then, on arguments for all
parameters and to every depth, the result of evaluating its expression in three layers: the
parameters, the names that had a value at compilation with that value, and the scope as it is now.
For a named function the second layer also has the own name, as the finished function. -/
theorem compiled_bodies_mean_direct_evaluation (store : Store) (scope : Scope)
    (params : List String) (grounded : store.Grounded) (inStore : scope.InStore store)
    (clear : ∀ name placeholder,
      store.lookup? scope name ≠ some (.function (.placeholder placeholder))) :
    (∀ (body : Expr) (node : Node), body.compile ⟨params, none, scope, store⟩ = .ok node →
      ∀ later, Store.Later store later →
        node.Means body later scope params (store.snapshot scope)) ∧
    ∀ name body value made,
      outcome (makeDefun scope name params body) store = (.ok value, made) →
      ∃ id closure, value = .function (.closure id) ∧
        ∀ later, Store.Later made later →
          later.closure? id = some closure ∧
          closure.body.Means body later scope params
            ((store.snapshot scope).insert name value) ∧
          ∀ args, args.length = params.length → ∀ depth,
            later.call (depth + 1) (.closure id) args =
              closure.body.eval later (later.call depth) args := by
  constructor
  · intro body node compiled later path
    apply Expr.means_of_compile ?_ (path.grows.inStore inStore) (path.grounded grounded) compiled
    refine ⟨?_, ?_, clear⟩
    · rintro name placeholder ⟨⟩
    · intro name _
      exact store.get?_snapshot scope name
  · intro name body value made succeeded
    rcases outcome_makeDefun scope name params body store with
      ⟨value, made, reached, done⟩ | ⟨_, cause, _, failed⟩
    · cases reached.symm.trans succeeded
      rcases done.means grounded inStore clear with ⟨closure, arity, means⟩
      refine ⟨store.closures.size, closure, done.value_eq, ?_⟩
      intro later path
      rcases means later path with ⟨isThere, meansLater⟩
      refine ⟨isThere, meansLater, ?_⟩
      intro args count depth
      rw [Store.call, Store.runClosure, isThere]
      exact if_pos (by rw [count, arity])
    · cases failed.symm.trans succeeded

theorem limit_is_fixed_and_other_is_read_late :
    let scope : Scope := ⟨0, []⟩
    let store : Store := (Store.empty.addRoot ⟨[("limit", .integer 1)]⟩).2
    let later : Store :=
      (store.define scope "limit" (.integer 2)).define scope "other" (.integer 3)
    (Node.branch (.argument 0) (.constant (.integer 1)) (.variable scope "other")).Means
      (.branch (.symbol "x") (.symbol "limit") (.symbol "other")) later scope ["x"]
      (store.snapshot scope) ∧
    ∃ made closure, outcome (makeDefun scope "limit" ["x"] (.symbol "limit")) store =
        (.ok (.function (.closure 0)), made) ∧
      made.closure? 0 = some closure ∧
      closure.body.Means (.symbol "limit") made scope ["x"]
        ((store.snapshot scope).insert "limit" (.function (.closure 0))) := by
  intro scope store later
  have inStore : scope.InStore store := by
    intro id idMem
    cases List.mem_singleton.mp idMem
    exact Nat.zero_lt_one
  have path : Store.Later store later := by
    refine .tail (.single (.effect inStore (.define _ trivial))) (.effect ?_ (.define _ trivial))
    exact (Store.grows_bind _ _ _ _).inStore inStore
  have grounded : store.Grounded := by
    intro id closure found
    cases found
  have clear : ∀ name placeholder,
      store.lookup? scope name ≠ some (.function (.placeholder placeholder)) := by
    intro name placeholder
    have shown : store.lookup? scope name = if "limit" = name then some (.integer 1) else none := by
      simp [store, scope, Store.lookup?, Scope.chain, Store.addRoot, Store.addFrame, Store.frame,
        Store.empty, Assoc.get?, Assoc.findEntry]
    rw [shown]
    split <;> simp
  have meaning := compiled_bodies_mean_direct_evaluation store scope ["x"] grounded inStore clear
  refine ⟨meaning.1 _ _ rfl later path, ?_⟩
  rcases meaning.2 "limit" (.symbol "limit") _ _ rfl with ⟨id, closure, isFirst, means⟩
  cases isFirst
  exact ⟨_, closure, rfl, (means _ .refl).1, (means _ .refl).2.1⟩

end ExactLisp
