import ExactLisp.Proofs.Grounded

/-!
# Sound stores

In a sound store every value holds known functions only: builtins and functions that exist, but no
forward references. The body of a function reads arguments that its arity provides, and its forward
references refer to that function. Then no call fails for an internal reason.

A forward reference is weak: it does not keep its function alive. `Store.guardedCall` is the call in
the worst case, where every function that is not running has been let go of, and where forward
references in arguments and results are refused. In a sound store nothing can be told from a plain
call (`Store.Sound.coincide_call`): forward references are resolved while their function is running,
and none is passed or returned.
-/

namespace ExactLisp

/-! ### Known functions -/

/-- A builtin, or a function that exists in a store. -/
def Function.Known (store : Store) : Function → Prop
  | builtin _ => True
  | closure id => id < store.closures.size
  | placeholder _ => False

/-- Every function that a value holds is known. -/
abbrev Value.Known (store : Store) : Value → Prop :=
  Value.All (Function.Known store)

theorem Function.Known.of_grows {before after : Store} (grows : before.Grows after)
    {callee : Function} (known : callee.Known before) : callee.Known after := by
  cases callee with
  | builtin _ => trivial
  | closure id => exact Nat.lt_of_lt_of_le known grows.size_closures_le
  | placeholder _ => exact known

theorem Value.Known.of_grows {before after : Store} (grows : before.Grows after) {value : Value}
    (known : value.Known before) : value.Known after :=
  known.mono fun _ => Function.Known.of_grows grows

/-- What may stand in the body of a function. -/
def Store.bodyLaw (store : Store) (id : ClosureId) (arity : Nat) : NodeLaw where
  constant value := value.Known store
  argument index := index < arity
  late scope := scope.InStore store
  itself placeholder := store.referent? placeholder = some id

/-- Frames hold known functions only, and every body reads arguments, scopes and forward references
that it may read. -/
structure Store.Sound (store : Store) : Prop where
  values : ∀ id name value, (store.frame id).get? name = some value → value.Known store
  bodies : ∀ id closure, store.closure? id = some closure →
    closure.body.Obeys (store.bodyLaw id closure.arity)

theorem Node.Obeys.of_grows {before after : Store} (grows : before.Grows after) {id : ClosureId}
    {arity : Nat} {node : Node} (obeys : node.Obeys (before.bodyLaw id arity)) :
    node.Obeys (after.bodyLaw id arity) := by
  refine obeys.mono ?_ ?_ ?_ ?_
  · exact fun value known => Value.Known.of_grows grows known
  · exact fun index inside => inside
  · exact fun scope inStore => grows.inStore inStore
  · exact fun placeholder refers => grows.cells placeholder id refers

namespace Store

variable {store : Store}

theorem Sound.grounded (sound : store.Sound) : store.Grounded := by
  intro id closure found
  refine (sound.bodies id closure found).mono ?_ ?_ ?_ ?_
  · exact fun _ _ => trivial
  · exact fun _ _ => trivial
  · exact fun scope inStore => inStore
  · exact fun _ _ => trivial

theorem Sound.known_of_lookup? (sound : store.Sound) {scope : Scope} {name : String}
    {value : Value} (found : store.lookup? scope name = some value) : value.Known store := by
  rcases List.exists_of_findSome?_eq_some found with ⟨id, _, found⟩
  exact sound.values id name value found

theorem empty_sound : empty.Sound := by
  constructor
  · intro id name value found
    simp [empty, frame, Assoc.get?_empty] at found
  · intro id closure found
    simp [empty, closure?] at found

/-! ### The worst case -/

/-- The store as it is when only some functions are alive: forward references to all others refer to
nothing. -/
def holding (store : Store) (alive : List ClosureId) : Store :=
  { store with cells := store.cells.map fun held => held.filter fun id => id ∈ alive }

theorem referent?_holding (store : Store) (alive : List ClosureId) (placeholder : Placeholder) :
    (store.holding alive).referent? placeholder =
      (store.referent? placeholder).filter fun id => id ∈ alive := by
  simp only [referent?, holding, Array.getElem?_map]
  cases store.cells[placeholder.cell]? <;> rfl

end Store

/-- Whether a value holds a forward reference, at any depth. -/
def Value.holdsReference (value : Value) : Bool :=
  value.functions.any fun
    | .placeholder _ => true
    | _ => false

/-- Passes a value on if it holds no forward reference. -/
def Value.refuseReference (refusal : Failure) (value : Value) : Except Failure Value :=
  if value.holdsReference then .error refusal else .ok value

namespace Store

/-- Runs a function while some are running already and no others are alive. -/
def runHolding (store : Store)
    (invoke : List ClosureId → Function → List Value → Except Failure Value)
    (running : List ClosureId) : Function → List Value → Except Failure Value
  | .builtin builtin, args => (store.holding running).runBuiltin (invoke running) builtin args
  | .closure id, args =>
    (store.holding (id :: running)).runClosure (invoke (id :: running)) id args
  | .placeholder placeholder, args => do
    let id ← orFail ((store.holding running).resolve placeholder)
    (store.holding (id :: running)).runClosure (invoke (id :: running)) id args

/-- A call in the worst case: only the functions that are running are alive, and forward references
are refused in arguments and results. -/
def guardedCall (store : Store) (refusal : Failure) :
    Nat → List ClosureId → Function → List Value → Except Failure Value
  | 0, _, _, _ => .error .outOfDepth
  | depth + 1, running, callee, args => do
    let args ← args.mapM (Value.refuseReference refusal)
    let value ← store.runHolding (store.guardedCall refusal depth) running callee args
    value.refuseReference refusal

end Store

theorem Value.Known.holdsReference_eq {store : Store} {value : Value} (known : value.Known store) :
    value.holdsReference = false := by
  rw [Value.holdsReference, List.any_eq_false]
  intro callee calleeMem
  have calleeKnown := known callee calleeMem
  cases callee with
  | placeholder _ => exact absurd calleeKnown not_false
  | _ => simp

theorem Value.Known.refuseReference_eq {store : Store} {value : Value} (known : value.Known store)
    (refusal : Failure) : value.refuseReference refusal = .ok value := by
  rw [Value.refuseReference, known.holdsReference_eq]
  rfl

namespace Store

variable {store : Store}

theorem refuseReferences_eq {args : List Value} (known : ∀ arg ∈ args, arg.Known store)
    (refusal : Failure) : args.mapM (Value.refuseReference refusal) = .ok args := by
  induction args with
  | nil => rfl
  | cons arg args ih =>
      rw [List.forall_mem_cons] at known
      rw [List.mapM_cons, ih known.2, known.1.refuseReference_eq refusal]
      rfl

/-- What results of calls have to be: values of known functions only, or failures that are not
internal. -/
abbrev CoincideCall (store : Store) : Except Failure Value → Except Failure Value → Prop :=
  Coincide (Value.Known store) fun failure => failure.isInternal = false

end Store

/-- A function that may be called while some are running: a known one, or a forward reference to one
of those that are running. -/
def Function.Callable (store : Store) (running : List ClosureId) : Function → Prop
  | placeholder reference =>
    ∃ id ∈ running, store.referent? reference = some id ∧ id < store.closures.size
  | callee => callee.Known store

theorem Function.Known.callable {store : Store} {callee : Function} (known : callee.Known store)
    (running : List ClosureId) : callee.Callable store running := by
  cases callee with
  | placeholder _ => exact absurd known not_false
  | _ => exact known

namespace Store

variable {store : Store}

theorem Sound.coincide_lookup (sound : store.Sound) (scope : Scope) (name : String) :
    store.CoincideCall (orFail (store.lookup scope name)) (orFail (store.lookup scope name)) := by
  rw [lookup]
  cases found : store.lookup? scope name with
  | none => exact .error rfl
  | some value => exact .ok (sound.known_of_lookup? found)

/-- The body of a function does in the worst case what it does otherwise, if its calls do. -/
theorem Sound.coincide_runClosure (sound : store.Sound) {id : ClosureId}
    (inStore : id < store.closures.size) {running : List ClosureId} (isRunning : id ∈ running)
    {args : List Value} (knownArgs : ∀ arg ∈ args, arg.Known store)
    {invokeLeft invokeRight : Function → List Value → Except Failure Value}
    (invoke : ∀ callee values, callee.Callable store running →
      (∀ value ∈ values, value.Known store) →
      store.CoincideCall (invokeLeft callee values) (invokeRight callee values)) :
    store.CoincideCall ((store.holding running).runClosure invokeLeft id args)
      (store.runClosure invokeRight id args) := by
  have sameClosure : (store.holding running).closure? id = store.closure? id := rfl
  rw [runClosure, runClosure, sameClosure]
  rcases Option.isSome_iff_exists.mp ((store.closure?_isSome_iff id).mpr inStore) with
    ⟨closure, found⟩
  rw [found]
  by_cases count : args.length = closure.arity
  · simp only [if_pos count]
    have resolves : ∀ placeholder, store.referent? placeholder = some id →
        (store.holding running).referent? placeholder = some id := by
      intro placeholder refers
      rw [referent?_holding, refers, Option.filter_some, if_pos (by simpa using isRunning)]
    apply (sound.bodies id closure found).coincide
    refine ⟨fun _ => EvalError.not_internal_of_operational, fun _ known => known,
      ?_, ?_, ?_, ?_, ?_⟩
    · intro index inside
      rw [← count] at inside
      rw [argumentAt, List.getElem?_eq_getElem inside]
      exact .ok (knownArgs _ (List.getElem_mem inside))
    · intro scope name _
      exact sound.coincide_lookup scope name
    · intro placeholder refers
      rw [resolve, resolve, resolves placeholder refers, refers]
      exact .ok inStore
    · intro callee values known knownValues
      exact invoke callee values (known.callable running) knownValues
    · intro placeholder values refers knownValues
      exact invoke _ values ⟨id, isRunning, refers, inStore⟩ knownValues
  · simp only [if_neg count]
    exact .error rfl

theorem CoincideCall.refuseReference {left right : Except Failure Value}
    (same : store.CoincideCall left right) (refusal : Failure) :
    store.CoincideCall (left >>= Value.refuseReference refusal) right := by
  rcases same with ⟨same, meets⟩
  rw [same]
  cases left with
  | error failure => exact .error meets
  | ok value =>
      have known : value.Known store := meets
      have passes : (Except.ok value >>= Value.refuseReference refusal) = .ok value :=
        known.refuseReference_eq refusal
      rw [passes]
      exact .ok known

/-- In a sound store the worst case cannot be told from a plain call. -/
theorem Sound.coincide_call (sound : store.Sound) (refusal : Failure) (depth : Nat)
    (running : List ClosureId) (callee : Function) (args : List Value)
    (callable : callee.Callable store running) (knownArgs : ∀ arg ∈ args, arg.Known store) :
    store.CoincideCall (store.guardedCall refusal depth running callee args)
      (store.call depth callee args) := by
  -- a function that is called runs itself from then on, so the induction is for all that are running
  induction depth generalizing running callee args with
  | zero => exact .error rfl
  | succ depth ih =>
      have runs : store.CoincideCall
          (store.runHolding (store.guardedCall refusal depth) running callee args)
          (store.call (depth + 1) callee args) := by
        cases callee with
        | builtin builtin =>
            rw [runHolding, call, runBuiltin, runBuiltin]
            split
            · apply Primitive.coincide_run
                (fun _ => EvalError.not_internal_of_operational) ?_ ?_ _ knownArgs
              · intro callee known
                cases callee with
                | placeholder _ => exact absurd known not_false
                | _ => rfl
              · intro callee values known knownValues
                exact ih running callee values (known.callable running) knownValues
            · exact .error rfl
        | closure id =>
            rw [runHolding, call]
            exact sound.coincide_runClosure callable List.mem_cons_self knownArgs (ih (id :: running))
        | placeholder placeholder =>
            rcases callable with ⟨id, isRunning, refers, inStore⟩
            have resolves : (store.holding running).referent? placeholder = some id := by
              rw [referent?_holding, refers, Option.filter_some, if_pos (by simpa using isRunning)]
            rw [runHolding, call, resolve, resolve, resolves, refers]
            exact sound.coincide_runClosure inStore List.mem_cons_self knownArgs (ih (id :: running))
      rw [guardedCall, refuseReferences_eq knownArgs refusal]
      exact runs.refuseReference refusal

/-! ### Changes of a sound store -/

variable {before after : Store}

/-- When a store grows, old functions stay as they have to be, so only values and new functions have
to be looked at. -/
theorem Sound.of_grows (sound : before.Sound) (grows : before.Grows after)
    (values : ∀ id name value, (after.frame id).get? name = some value → value.Known after)
    (new : ∀ id closure, after.closure? id = some closure → before.closure? id = some closure ∨
      closure.body.Obeys (after.bodyLaw id closure.arity)) : after.Sound := by
  refine ⟨values, ?_⟩
  intro id closure found
  rcases new id closure found with isOld | obeys
  · exact (sound.bodies id closure isOld).of_grows grows
  · exact obeys

/-- Binding a known value keeps a store sound. -/
theorem Sound.known_of_get?_frame_bind (sound : before.Sound) (grows : before.Grows after)
    {id : FrameId} {name : String} {value : Value} (known : value.Known after)
    (frames : after.frames = (before.bind id name value).frames) :
    ∀ asked askedName shown, (after.frame asked).get? askedName = some shown →
      shown.Known after := by
  intro asked askedName shown found
  have frameEq : after.frame asked = (before.bind id name value).frame asked := by
    simp only [frame, frames]
  rw [frameEq, get?_frame_bind] at found
  split at found
  · cases found
    exact known
  · exact (sound.values asked askedName shown found).of_grows grows

theorem Sound.bind (sound : store.Sound) (id : FrameId) (name : String) {value : Value}
    (known : value.Known store) : (store.bind id name value).Sound := by
  have grows := grows_bind store id name value
  apply sound.of_grows grows
  · exact sound.known_of_get?_frame_bind grows (known.of_grows grows) rfl
  · exact fun _ _ found => Or.inl found

theorem Sound.addFrame (sound : store.Sound) {bindings : Bindings}
    (known : ∀ name value, bindings.get? name = some value → value.Known store) :
    (store.addFrame bindings).2.Sound := by
  have grows := grows_addFrame store bindings
  apply sound.of_grows grows
  · intro id name value found
    rw [frame_addFrame] at found
    split at found
    · exact (known name value found).of_grows grows
    · exact (sound.values id name value found).of_grows grows
  · exact fun _ _ found => Or.inl found

end Store

theorem CompileContext.parameter?_lt {context : CompileContext} {name : String} {index : Nat}
    (isParameter : context.parameter? name = some index) : index < context.params.length := by
  rw [CompileContext.parameter?, Option.map_eq_some_iff] at isParameter
  rcases isParameter with ⟨⟨param, position⟩, found, rfl⟩
  have positionMem := List.mem_reverse.mp (List.mem_of_find?_eq_some found)
  exact List.snd_lt_of_mem_zipIdx positionMem

/-- A body is compiled against known values only, so it obeys the law for bodies. -/
theorem CompileContext.lawful {context : CompileContext} {store : Store} {id : ClosureId}
    (known : ∀ name value, context.store.lookup? context.scope name = some value →
      value.Known store)
    (inStore : context.scope.InStore store)
    (itself : ∀ placeholder, context.self? = some placeholder →
      store.referent? placeholder = some id) :
    context.Lawful (store.bodyLaw id context.params.length) := by
  refine ⟨?_, ?_, ?_, itself, ?_, ?_, inStore⟩
  · intro value noFunctions callee calleeMem
    rw [noFunctions] at calleeMem
    exact absurd calleeMem List.not_mem_nil
  · intro values each
    exact Value.all_list.mpr each
  · intro name index isParameter
    exact context.parameter?_lt isParameter
  · intro name value found _
    exact known name value found
  · intro name placeholder found
    exact absurd (Value.all_function.mp (known name _ found)) not_false

section Made

variable {scope : Scope} {params : List String} {body : Expr} {store made : Store} {value : Value}

/-- A store stays sound when a function is added whose body was compiled in it. -/
theorem Store.Sound.of_made {context : CompileContext} {node : Node} {name : Option String}
    (sound : store.Sound) (grows : store.Grows made) (compiled : body.compile context = .ok node)
    (closures : ∀ asked, made.closure? asked =
      if asked = store.closures.size then some ⟨name, context.params.length, node⟩
      else store.closure? asked)
    (sameFrames : context.store.frames = store.frames) (inStore : context.scope.InStore store)
    (itself : ∀ placeholder, context.self? = some placeholder →
      made.referent? placeholder = some store.closures.size)
    (values : ∀ id name value, (made.frame id).get? name = some value → value.Known made) :
    made.Sound := by
  apply sound.of_grows grows values
  intro id closure found
  rw [closures] at found
  split at found
  · rename_i isNew
    cases found
    rw [isNew]
    have lawful := context.lawful ?_ (grows.inStore inStore) itself
    · exact Or.inr ((body.obeys_of_compile lawful).1 node compiled)
    · intro asked shown found
      have sameLookup : context.store.lookup? context.scope asked =
          store.lookup? context.scope asked :=
        lookup?_congr asked fun id _ => by simp only [frame, sameFrames]
      rw [sameLookup] at found
      exact (sound.known_of_lookup? found).of_grows grows
  · exact Or.inl found

/-- The function that was added last is known. -/
theorem Value.known_closure_of_closures {closure : Closure}
    (closures : ∀ asked, made.closure? asked =
      if asked = store.closures.size then some closure else store.closure? asked) :
    (Value.function (.closure store.closures.size)).Known made := by
  have inMade : store.closures.size < made.closures.size := by
    rw [← Store.closure?_isSome_iff, closures, if_pos rfl]
    rfl
  exact Value.all_function.mpr inMade

theorem LambdaMade.sound (done : LambdaMade scope params body store value made)
    (sound : store.Sound) (inStore : scope.InStore store) : made.Sound ∧ value.Known made := by
  rcases done.compiled with ⟨node, compiled, closures⟩
  constructor
  · apply sound.of_made done.grows compiled closures rfl inStore
    · rintro placeholder ⟨⟩
    · intro id name shown found
      simp only [Store.frame, done.frames_eq] at found
      exact (sound.values id name shown found).of_grows done.grows
  · rw [done.value_eq]
    exact Value.known_closure_of_closures closures

theorem DefunMade.sound {name : String} (done : DefunMade scope name params body store value made)
    (sound : store.Sound) (inStore : scope.InStore store) : made.Sound ∧ value.Known made := by
  rcases done.compiled with ⟨node, compiled, closures⟩
  have known : value.Known made := by
    rw [done.value_eq]
    exact Value.known_closure_of_closures closures
  refine ⟨?_, known⟩
  apply sound.of_made done.grows compiled closures rfl inStore
  · rintro placeholder ⟨⟩
    rw [done.referent?_eq, if_pos rfl]
  · exact sound.known_of_get?_frame_bind done.grows known done.frames_eq

end Made

end ExactLisp
