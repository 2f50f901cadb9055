import ExactLisp.Assoc
import ExactLisp.EvalError
import ExactLisp.Node.Basic

/-!
# The store

Everything that lives longer than the evaluation of one form: frames of bindings, the functions made
so far, and the cells of forward references. Frames, functions and cells are numbered in the order
in which they were made, and none is ever removed, so an identity keeps its meaning.

A name is looked up along the frames of a scope, nearest first. `define` binds in the own frame of a
scope; `set` changes the nearest frame that already binds the name, and fails if there is none.
-/

namespace ExactLisp

/-- The bindings of a frame. -/
abbrev Bindings : Type := Assoc String Value

/-- Frames, functions and cells. A cell refers to a function or to none. -/
structure Store where
  frames : Array Bindings
  closures : Array Closure
  cells : Array (Option ClosureId)

namespace Store

/-- A store without frames, functions and cells. -/
def empty : Store := ⟨#[], #[], #[]⟩

/-! ### Frames -/

/-- The bindings of a frame. -/
def frame (store : Store) (id : FrameId) : Bindings :=
  store.frames[id]?.getD Assoc.empty

/-- Binds a name in a frame. -/
def bind (store : Store) (id : FrameId) (name : String) (value : Value) : Store :=
  { store with frames := store.frames.modify id (·.insert name value) }

/-- Binding a name in an existing frame changes that frame, and no other. -/
theorem frame_bind (store : Store) {id : FrameId} (inStore : id < store.frames.size)
    (name : String) (value : Value) (asked : FrameId) :
    (store.bind id name value).frame asked =
      if asked = id then (store.frame id).insert name value else store.frame asked := by
  simp only [frame, bind, Array.getElem?_modify]
  by_cases same : id = asked
  · subst same
    simp [inStore]
  · simp [same, Ne.symm same]

/-- Adds a frame with given bindings; its identity comes with the store. -/
def addFrame (store : Store) (bindings : Bindings) : FrameId × Store :=
  (store.frames.size, { store with frames := store.frames.push bindings })

/-- A new scope of its own, with given bindings. -/
def addRoot (store : Store) (bindings : Bindings) : Scope × Store :=
  let (id, store) := store.addFrame bindings
  (⟨id, []⟩, store)

/-- A new scope inside another one, with no bindings of its own. -/
def addChild (store : Store) (parent : Scope) : Scope × Store :=
  let (id, store) := store.addFrame Assoc.empty
  (⟨id, parent.chain⟩, store)

/-! ### Names -/

/-- Whether a frame itself binds a name. -/
def binds (store : Store) (id : FrameId) (name : String) : Bool :=
  (store.frame id).contains name

/-- The nearest frame of a chain that binds a name. -/
def owner? (store : Store) (chain : List FrameId) (name : String) : Option FrameId :=
  chain.find? (store.binds · name)

/-- The value of a name in a scope, if it has one. -/
def lookup? (store : Store) (scope : Scope) (name : String) : Option Value :=
  scope.chain.findSome? fun id => (store.frame id).get? name

/-- The value of a name in a scope. -/
def lookup (store : Store) (scope : Scope) (name : String) : Except EvalError Value :=
  match store.lookup? scope name with
  | some value => .ok value
  | none => .error (.undefinedSymbol name)

/-- Binds a name in the own frame of a scope. -/
def define (store : Store) (scope : Scope) (name : String) (value : Value) : Store :=
  store.bind scope.own name value

/-- Changes the value of a name in the nearest frame that binds it. -/
def set (store : Store) (scope : Scope) (name : String) (value : Value) : Except EvalError Store :=
  match store.owner? scope.chain name with
  | some id => .ok (store.bind id name value)
  | none => .error (.undefinedSymbol name)

/-- Inserts a name into an increasing list of names, unless it is there already. -/
def insertName (name : String) : List String → List String
  | [] => [name]
  | other :: names =>
    if name < other then name :: other :: names
    else if name = other then other :: names
    else other :: insertName name names

/-- The names that have a value in a scope, in increasing order. -/
def names (store : Store) (scope : Scope) : List String :=
  (scope.chain.flatMap fun id => (store.frame id).keys).foldr insertName []

/-! ### Functions and forward references -/

/-- Adds a function; its identity comes with the store. -/
def addClosure (store : Store) (closure : Closure) : ClosureId × Store :=
  (store.closures.size, { store with closures := store.closures.push closure })

/-- Adds a cell that refers to nothing. -/
def addCell (store : Store) : CellId × Store :=
  (store.cells.size, { store with cells := store.cells.push none })

/-- A new forward reference, which refers to nothing yet. -/
def addPlaceholder (store : Store) (name : String) : Placeholder × Store :=
  let (cell, store) := store.addCell
  (⟨name, cell⟩, store)

/-- Lets a forward reference, and with it every other one of the same cell, refer to a function. -/
def fill (store : Store) (placeholder : Placeholder) (id : ClosureId) : Store :=
  { store with cells := store.cells.modify placeholder.cell fun _ => some id }

/-- Lets every cell that refers to a function refer to nothing, because nobody else holds that
function any longer. -/
def expire (store : Store) (id : ClosureId) : Store :=
  { store with cells := store.cells.map fun held => if held = some id then none else held }

/-- The function that a forward reference refers to. -/
def referent? (store : Store) (placeholder : Placeholder) : Option ClosureId :=
  store.cells[placeholder.cell]?.getD none

/-- The function that a forward reference refers to; it is an error if there is none. -/
def resolve (store : Store) (placeholder : Placeholder) : Except EvalError ClosureId :=
  match store.referent? placeholder with
  | some id => .ok id
  | none => .error (.unresolvedFunction placeholder.name)

/-- The function made by `lambda` or `defun` that stands behind a function value, seen through a
forward reference. -/
def closureId? (store : Store) : Function → Option ClosureId
  | .builtin _ => none
  | .closure id => some id
  | .placeholder placeholder => store.referent? placeholder

/-- The function of an identity. -/
def closure? (store : Store) (id : ClosureId) : Option Closure :=
  store.closures[id]?

end Store

end ExactLisp
