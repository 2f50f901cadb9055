import ExactLisp.Proofs.Store

/-!
# Builtins

A global frame binds the name of every primitive operation to a builtin of that operation. Calling
the builtin of an operation that calls no function itself is computing the operation: the check of
the number of arguments refuses what the operation would refuse, in the same words.
-/

namespace ExactLisp

/-- The builtin that a global frame binds to the name of an operation. -/
def Primitive.builtin (operation : Primitive) (home : FrameId) : Builtin :=
  ⟨home, operation.name, operation.arity, operation⟩

/-- Every operation has a name of its own in a global frame, which none of the others takes. -/
theorem Primitive.get?_globalBindings_name (home : FrameId) (operation : Primitive) :
    (globalBindings home).get? operation.name =
      some (.function (.builtin (operation.builtin home))) := by
  cases operation <;>
    simp [globalBindings, all, Assoc.get?_insert, name, builtin]

theorem Store.lookup?_addGlobal (store : Store) (operation : Primitive) :
    store.addGlobal.2.lookup? store.addGlobal.1 operation.name =
      some (.function (.builtin (operation.builtin store.frames.size))) := by
  have isGlobal : store.addGlobal.2.frame store.frames.size =
      globalBindings store.frames.size := by
    rw [addGlobal, addRoot, frame_addFrame, if_pos rfl]
  change [store.frames.size].findSome? (fun id => (store.addGlobal.2.frame id).get? _) = _
  rw [List.findSome?_singleton, isGlobal, Primitive.get?_globalBindings_name]

theorem Primitive.compute_of_not_accepts {operation : Primitive} {args : List Value}
    (refused : operation.arity.accepts args.length = false) (store : Store) :
    operation.compute store args =
      .error (.arityMismatch operation.name operation.arity args.length) := by
  unfold compute
  split
  -- every equation but the last has a number of arguments that is accepted
  case h_22 => rfl
  all_goals simp [arity, Arity.accepts] at refused

theorem Primitive.run_eq_compute {operation : Primitive} (callsNone : operation ∉ [apply, map])
    (store : Store) (invoke : Function → List Value → Except Failure Value) (args : List Value) :
    operation.run store invoke args = orFail (operation.compute store args) := by
  unfold run
  split
  case h_3 => rfl
  all_goals simp at callsNone

/-- Calling the builtin of an operation that calls no function is computing the operation. -/
theorem Store.call_builtin {operation : Primitive} (callsNone : operation ∉ [.apply, .map])
    (store : Store) (depth : Nat) (home : FrameId) (args : List Value) :
    store.call (depth + 1) (.builtin (operation.builtin home)) args =
      orFail (operation.compute store args) := by
  rw [call, runBuiltin, Primitive.builtin, Primitive.run_eq_compute callsNone]
  by_cases accepted : operation.arity.accepts args.length
  · rw [if_pos accepted]
  · rw [if_neg accepted, Primitive.compute_of_not_accepts (Bool.eq_false_iff.mpr accepted)]
    rfl

end ExactLisp
