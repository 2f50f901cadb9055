import ExactLisp.Proofs.Outcome

/-!
# What the operations on a store do

Each operation is described once, by what is read from the store after it; later proofs use these
descriptions and not the representation. Frames are only ever written name by name, functions and
cells are only ever added, and a cell that refers to a function goes on doing so: a store grows.
-/

namespace ExactLisp

/-- All frames of a scope are in a store. -/
def Scope.InStore (scope : Scope) (store : Store) : Prop :=
  ∀ id ∈ scope.chain, id < store.frames.size

namespace Store

/-! ### Reading after writing -/

@[simp]
theorem size_frames_bind (store : Store) (id : FrameId) (name : String) (value : Value) :
    (store.bind id name value).frames.size = store.frames.size := by
  simp [bind]

/-- Binding a name is seen at that name of that frame, and nowhere else. -/
theorem get?_frame_bind (store : Store) (id : FrameId) (name : String) (value : Value)
    (asked : FrameId) (askedName : String) :
    ((store.bind id name value).frame asked).get? askedName =
      if asked = id ∧ askedName = name ∧ id < store.frames.size then some value
      else (store.frame asked).get? askedName := by
  by_cases inStore : id < store.frames.size
  · rw [frame_bind store inStore]
    by_cases same : asked = id
    · simp [same, Assoc.get?_insert, inStore]
    · simp [same]
  · -- writing to a frame that does not exist writes nothing
    have unchanged : (store.bind id name value).frame asked = store.frame asked := by
      simp only [frame, bind, Array.getElem?_modify]
      by_cases same : id = asked
      · subst same
        simp [Array.getElem?_eq_none (Nat.le_of_not_lt inStore)]
      · simp [same]
    simp [unchanged, inStore]

/-- A name has the same value in two stores whose frames agree along the scope. -/
theorem lookup?_congr {left right : Store} {scope : Scope} (name : String)
    (agree : ∀ id ∈ scope.chain, left.frame id = right.frame id) :
    left.lookup? scope name = right.lookup? scope name := by
  simp only [lookup?]
  revert agree
  induction scope.chain with
  | nil =>
      intro _
      rfl
  | cons id chain ih =>
      intro agree
      have agreeHead := agree id List.mem_cons_self
      have agreeTail := ih fun other otherMem => agree other (List.mem_cons_of_mem _ otherMem)
      rw [List.findSome?_cons, List.findSome?_cons, agreeHead, agreeTail]

theorem lookup_congr {left right : Store} {scope : Scope} {name : String}
    (agree : left.lookup? scope name = right.lookup? scope name) :
    left.lookup scope name = right.lookup scope name := by
  rw [lookup, lookup, agree]

/-- A successful assignment binds the name in a frame of the scope that binds it already. -/
theorem eq_bind_of_set {store changed : Store} {scope : Scope} {name : String} {value : Value}
    (assigned : store.set scope name value = .ok changed) :
    ∃ owner ∈ scope.chain, store.binds owner name ∧ changed = store.bind owner name value := by
  rw [set] at assigned
  cases found : store.owner? scope.chain name with
  | none => simp [found] at assigned
  | some owner =>
      simp only [found, Except.ok.injEq] at assigned
      have binds := @List.find?_some _ (store.binds · name) _ _ found
      exact ⟨owner, List.mem_of_find?_eq_some found, binds, assigned.symm⟩

theorem mem_insertName {asked name : String} {names : List String} :
    asked ∈ insertName name names ↔ asked = name ∨ asked ∈ names := by
  induction names with
  | nil => simp [insertName]
  | cons other names ih =>
      simp only [insertName]
      split
      · simp
      · split
        · rename_i same
          simp [same]
        · simp only [List.mem_cons, ih]
          exact or_left_comm

/-- The names of a scope are those that have a value. -/
theorem mem_names_iff (store : Store) (scope : Scope) (name : String) :
    name ∈ store.names scope ↔ (store.lookup? scope name).isSome := by
  have mem_foldr : ∀ names : List String, name ∈ names.foldr insertName [] ↔ name ∈ names := by
    intro names
    induction names with
    | nil => simp
    | cons other names ih => rw [List.foldr_cons, mem_insertName, ih, List.mem_cons]
  rw [names, mem_foldr, lookup?, List.findSome?_isSome_iff, List.mem_flatMap]
  simp only [Assoc.mem_keys_iff, Assoc.contains]

/-- Frames that exist already are unchanged by a new one. -/
theorem frame_addFrame (store : Store) (bindings : Bindings) (asked : FrameId) :
    (store.addFrame bindings).2.frame asked =
      if asked = store.frames.size then bindings else store.frame asked := by
  simp only [frame, addFrame, Array.getElem?_push]
  by_cases same : asked = store.frames.size <;> simp [same]

@[simp]
theorem size_frames_addFrame (store : Store) (bindings : Bindings) :
    (store.addFrame bindings).2.frames.size = store.frames.size + 1 := by
  simp [addFrame]

/-- A scope that lies in old frames and one new one is in the new store. -/
theorem inStore_addFrame {store : Store} {outer : List FrameId} (bindings : Bindings)
    (inStore : ∀ id ∈ outer, id < store.frames.size) :
    Scope.InStore ⟨store.frames.size, outer⟩ (store.addFrame bindings).2 := by
  intro id idMem
  rw [size_frames_addFrame]
  rcases List.mem_cons.mp idMem with rfl | idMem
  · exact Nat.lt_succ_self _
  · exact Nat.lt_succ_of_lt (inStore id idMem)

theorem closure?_addClosure (store : Store) (closure : Closure) (asked : ClosureId) :
    (store.addClosure closure).2.closure? asked =
      if asked = store.closures.size then some closure else store.closure? asked := by
  simp only [closure?, addClosure, Array.getElem?_push]

theorem closure?_isSome_iff (store : Store) (id : ClosureId) :
    (store.closure? id).isSome ↔ id < store.closures.size := by
  simp [closure?]

/-- A new cell refers to nothing, as an unknown one does. -/
theorem referent?_addPlaceholder (store : Store) (name : String) (asked : Placeholder) :
    (store.addPlaceholder name).2.referent? asked = store.referent? asked := by
  simp only [referent?, addPlaceholder, addCell, Array.getElem?_push]
  by_cases same : asked.cell = store.cells.size <;> simp [same]

theorem referent?_fill (store : Store) (placeholder asked : Placeholder) (id : ClosureId)
    (inStore : placeholder.cell < store.cells.size) :
    (store.fill placeholder id).referent? asked =
      if asked.cell = placeholder.cell then some id else store.referent? asked := by
  simp only [referent?, fill, Array.getElem?_modify]
  by_cases same : asked.cell = placeholder.cell
  · simp [same, inStore]
  · simp [same, Ne.symm same]

theorem resolve_congr {left right : Store} {placeholder : Placeholder}
    (agree : left.referent? placeholder = right.referent? placeholder) :
    left.resolve placeholder = right.resolve placeholder := by
  rw [resolve, resolve, agree]

end Store

/-! ### Making functions -/

/-- Everything that making a function without a name does. -/
structure LambdaMade (scope : Scope) (params : List String) (body : Expr) (store : Store)
    (value : Value) (made : Store) : Prop where
  compiled : ∃ node, body.compile ⟨params, none, scope, store⟩ = .ok node ∧
    ∀ asked, made.closure? asked =
      if asked = store.closures.size then some ⟨none, params.length, node⟩
      else store.closure? asked
  value_eq : value = .function (.closure store.closures.size)
  frames_eq : made.frames = store.frames
  cells_eq : made.cells = store.cells

/-- Everything that making a named function does. The cell of its forward reference is new, and
refers to the function from now on. -/
structure DefunMade (scope : Scope) (name : String) (params : List String) (body : Expr)
    (store : Store) (value : Value) (made : Store) : Prop where
  compiled : ∃ node,
    body.compile ⟨params, some ⟨name, store.cells.size⟩, scope, (store.addPlaceholder name).2⟩ =
      .ok node ∧
    ∀ asked, made.closure? asked =
      if asked = store.closures.size then some ⟨some name, params.length, node⟩
      else store.closure? asked
  value_eq : value = .function (.closure store.closures.size)
  frames_eq : made.frames = (store.define scope name value).frames
  referent?_eq : ∀ asked, made.referent? asked =
    if asked.cell = store.cells.size then some store.closures.size else store.referent? asked

namespace Evaluation

/-- Making a function without a name either does all of this, or fails and changes nothing. -/
theorem outcome_makeLambda (scope : Scope) (params : List String) (body : Expr) (store : Store) :
    (∃ value made, outcome (makeLambda scope params body) store = (.ok value, made) ∧
      LambdaMade scope params body store value made) ∨
    ∃ context cause, body.compile context = .error cause ∧
      outcome (makeLambda scope params body) store = (.error (.error cause), store) := by
  simp only [outcome, makeLambda]
  cases compiled : body.compile ⟨params, none, scope, store⟩ with
  | error cause => exact Or.inr ⟨_, cause, compiled, rfl⟩
  | ok node =>
      refine Or.inl ⟨_, _, rfl, ?_, rfl, rfl, rfl⟩
      exact ⟨node, compiled, Store.closure?_addClosure store _⟩

/-- Making a named function either does all of this, or fails and changes nothing. -/
theorem outcome_makeDefun (scope : Scope) (name : String) (params : List String) (body : Expr)
    (store : Store) :
    (∃ value made, outcome (makeDefun scope name params body) store = (.ok value, made) ∧
      DefunMade scope name params body store value made) ∨
    ∃ context cause, body.compile context = .error cause ∧
      outcome (makeDefun scope name params body) store = (.error (.error cause), store) := by
  cases compiled : body.compile
      ⟨params, some ⟨name, store.cells.size⟩, scope, (store.addPlaceholder name).2⟩ with
  | error cause =>
      have failed : makeDefun scope name params body store = .error (.error cause) store := by
        simp only [Store.addPlaceholder, Store.addCell] at compiled
        simp only [makeDefun, Store.addPlaceholder, Store.addCell, compiled]
      exact Or.inr ⟨_, cause, compiled, by simp only [outcome, failed]⟩
  | ok node =>
      have succeeded : makeDefun scope name params body store =
          .ok (.function (.closure store.closures.size))
            ((((store.addPlaceholder name).2.addClosure ⟨some name, params.length, node⟩).2.fill
              ⟨name, store.cells.size⟩ store.closures.size).define scope name
                (.function (.closure store.closures.size))) := by
        simp only [Store.addPlaceholder, Store.addCell] at compiled
        simp only [makeDefun, Store.addPlaceholder, Store.addCell, Store.addClosure, compiled]
      simp only [outcome, succeeded]
      refine Or.inl ⟨_, _, rfl, ?_, rfl, rfl, ?_⟩
      · exact ⟨node, compiled, Store.closure?_addClosure (store.addPlaceholder name).2 _⟩
      · intro asked
        rw [← Store.referent?_addPlaceholder store name]
        exact Store.referent?_fill ((store.addPlaceholder name).2.addClosure _).2 _ asked _
          (by simp [Store.addPlaceholder, Store.addCell, Store.addClosure])

end Evaluation

end ExactLisp
