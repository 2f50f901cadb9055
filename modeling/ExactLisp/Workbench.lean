import ExactLisp.Call
import ExactLisp.Value.Display

/-!
# Forward references on their own

A workbench holds named forward references and named functions with constant bodies. A function
lives as long as a name refers to it, and several names may do so: when the last of them is dropped
or rebound, every reference that was filled with the function refers to nothing again. Several names
may also hold references of one cell; what is done through one of them is seen through all.
-/

namespace ExactLisp

/-- Named forward references and named functions over one store. -/
structure Workbench where
  store : Store
  references : Assoc String Placeholder
  functions : Assoc String ClosureId

namespace Workbench

/-- A workbench that holds nothing. -/
def initial : Workbench := ⟨.empty, .empty, .empty⟩

/-- Puts a new forward reference under a name. -/
def declare (bench : Workbench) (handle name : String) : Workbench :=
  let (placeholder, store) := bench.store.addPlaceholder name
  { bench with store, references := bench.references.insert handle placeholder }

/-- Puts another reference of the same cell under a name. -/
def copy (bench : Workbench) (handle source : String) : Workbench :=
  match bench.references.get? source with
  | some placeholder => { bench with references := bench.references.insert handle placeholder }
  | none => bench

/-- Whether one of some names holds a function. -/
def isHeld (functions : Assoc String ClosureId) (id : ClosureId) : Bool :=
  functions.keys.any fun handle => functions.get? handle == some id

/-- The names of functions after one of them was given to another function or to none. -/
def reassign (functions : Assoc String ClosureId) (handle : String) :
    Option ClosureId → Assoc String ClosureId
  | some id => functions.insert handle id
  | none => functions.erase handle

/-- Lets a name hold a function or none, in place of the one it held. That one expires unless
another name holds it. -/
def rebind (bench : Workbench) (handle : String) (held? : Option ClosureId) : Workbench :=
  let functions := reassign bench.functions handle held?
  let store := match (bench.functions.get? handle).filter (!isHeld functions ·) with
    | some lost => bench.store.expire lost
    | none => bench.store
  { bench with store, functions }

/-- Lets go of the function that a name holds, if it holds one. -/
def release (bench : Workbench) (handle : String) : Workbench :=
  bench.rebind handle none

/-- Puts a new function under a name, in place of the one it held. -/
def make (bench : Workbench) (handle : String) (closure : Closure) : Workbench :=
  let (id, store) := bench.store.addClosure closure
  { bench with store }.rebind handle (some id)

/-- Puts the function of a name under another name as well. -/
def share (bench : Workbench) (handle source : String) : Workbench :=
  match bench.functions.get? source with
  | some id => bench.rebind handle (some id)
  | none => bench

/-- Fills a forward reference with a named function. -/
def fill (bench : Workbench) (reference handle : String) : Workbench :=
  match bench.references.get? reference, bench.functions.get? handle with
  | some placeholder, some id => { bench with store := bench.store.fill placeholder id }
  | _, _ => bench

/-- The function value that a name stands for, forward references first. -/
def function? (bench : Workbench) (handle : String) : Option Function :=
  match bench.references.get? handle with
  | some placeholder => some (.placeholder placeholder)
  | none => (bench.functions.get? handle).map .closure

/-- What is done on a workbench. -/
inductive Step where
  | declare (handle name : String)
  | copy (handle source : String)
  | make (handle : String) (closure : Closure)
  | share (handle source : String)
  | fill (reference handle : String)
  | release (handle : String)

/-- Carries out a step. -/
def perform (bench : Workbench) : Step → Workbench
  | .declare handle name => bench.declare handle name
  | .copy handle source => bench.copy handle source
  | .make handle closure => bench.make handle closure
  | .share handle source => bench.share handle source
  | .fill reference handle => bench.fill reference handle
  | .release handle => bench.release handle

end Workbench

end ExactLisp
