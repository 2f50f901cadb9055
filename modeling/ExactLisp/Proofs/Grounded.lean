import ExactLisp.Proofs.Bodies
import ExactLisp.Proofs.Effects

/-!
# Stores without dangling scopes

A store is grounded if the bodies of its functions look names up in frames that exist. Every store
is that a program can reach, and it stays so whatever happens to it later. In a grounded store a
call does not see frames that are added afterwards.
-/

namespace ExactLisp

/-- Bodies look names up in frames of a store. -/
def NodeLaw.ground (store : Store) : NodeLaw where
  constant _ := True
  argument _ := True
  late scope := scope.InStore store
  itself _ := True

namespace Store

/-- The bodies of all functions look names up in frames that exist. -/
def Grounded (store : Store) : Prop :=
  ∀ id closure, store.closure? id = some closure → closure.body.Obeys (NodeLaw.ground store)

/-- One change of a store: an effect of evaluation in some scope, or a new frame. -/
inductive Passes : Store → Store → Prop where
  | effect {before after : Store} {scope : Scope} (inStore : scope.InStore before)
      (effect : Effect scope (fun _ => True) (fun _ => True) before after) : Passes before after
  | frame (store : Store) (bindings : Bindings) : Passes store (store.addFrame bindings).2

/-- Any number of changes. -/
abbrev Later : Store → Store → Prop :=
  Relation.ReflTransGen Passes

theorem Passes.grows {before after : Store} (passes : Passes before after) :
    before.Grows after := by
  cases passes with
  | effect _ effect => exact effect.grows
  | frame bindings => exact grows_addFrame before bindings

theorem Later.grows {before after : Store} (later : Later before after) : before.Grows after := by
  induction later with
  | refl => exact .refl before
  | tail _ passes ih => exact ih.trans passes.grows

end Store

theorem Node.Obeys.ground_mono {before after : Store} (grows : before.Grows after) {node : Node}
    (obeys : node.Obeys (NodeLaw.ground before)) : node.Obeys (NodeLaw.ground after) := by
  refine obeys.mono ?_ ?_ ?_ ?_
  · exact fun _ allowed => allowed
  · exact fun _ allowed => allowed
  · exact fun scope inStore => grows.inStore inStore
  · exact fun _ allowed => allowed

theorem Expr.ground_of_compile {context : CompileContext} {store : Store}
    (inStore : context.scope.InStore store) {body : Expr} {node : Node}
    (compiled : body.compile context = .ok node) : node.Obeys (NodeLaw.ground store) := by
  have lawful : context.Lawful (NodeLaw.ground store) := by
    refine ⟨?_, ?_, ?_, ?_, ?_, ?_, inStore⟩
    · exact fun _ _ => trivial
    · exact fun _ _ => trivial
    · exact fun _ _ _ => trivial
    · exact fun _ _ => trivial
    · exact fun _ _ _ _ => trivial
    · exact fun _ _ _ => trivial
  exact (body.obeys_of_compile lawful).1 node compiled

namespace Store

variable {before after : Store}

/-- Old functions stay grounded when a store grows, so only new ones have to be looked at. -/
theorem Grounded.of_grows (grounded : before.Grounded) (grows : before.Grows after)
    (new : ∀ id closure, after.closure? id = some closure → before.closure? id = some closure ∨
      closure.body.Obeys (NodeLaw.ground after)) : after.Grounded := by
  intro id closure found
  rcases new id closure found with isOld | obeys
  · exact (grounded id closure isOld).ground_mono grows
  · exact obeys

theorem Passes.grounded (passes : Passes before after) (grounded : before.Grounded) :
    after.Grounded := by
  apply grounded.of_grows passes.grows
  intro id closure found
  cases passes with
  | frame bindings => exact Or.inl found
  | effect inStore effect =>
      have grows := effect.grows
      cases effect with
      | define value _ => exact Or.inl found
      | assign _ assigned =>
          rcases eq_bind_of_set assigned with ⟨owner, _, _, rfl⟩
          exact Or.inl found
      | lambda done =>
          rcases done.compiled with ⟨node, compiled, closures⟩
          rw [closures] at found
          split at found
          · cases found
            exact Or.inr (Expr.ground_of_compile (grows.inStore inStore) compiled)
          · exact Or.inl found
      | defun _ done =>
          rcases done.compiled with ⟨node, compiled, closures⟩
          rw [closures] at found
          split at found
          · cases found
            exact Or.inr (Expr.ground_of_compile (grows.inStore inStore) compiled)
          · exact Or.inl found

theorem Later.grounded (later : Later before after) (grounded : before.Grounded) :
    after.Grounded := by
  induction later with
  | refl => exact grounded
  | tail _ passes ih => exact passes.grounded ih

/-! ### Calls and new frames -/

/-- A store has the functions and cells of another one, and at least its frames. -/
structure Covers (right left : Store) : Prop where
  closures : right.closures = left.closures
  cells : right.cells = left.cells
  frames : ∀ id < left.frames.size, right.frame id = left.frame id

theorem Covers.addFrame {left right : Store} (covers : right.Covers left) (bindings : Bindings)
    (larger : left.frames.size ≤ right.frames.size) : (right.addFrame bindings).2.Covers left := by
  refine ⟨covers.closures, covers.cells, ?_⟩
  intro id old
  rw [frame_addFrame, if_neg (Nat.ne_of_lt (Nat.lt_of_lt_of_le old larger))]
  exact covers.frames id old

theorem Covers.closureId?_eq {left right : Store} (covers : right.Covers left)
    (callee : Function) : right.closureId? callee = left.closureId? callee := by
  cases callee <;> simp [closureId?, referent?, covers.cells]

/-- Nothing is required of results here, so anything coincides with itself. -/
theorem coincide_any (result : Except Failure Value) :
    Coincide (Value.All fun _ => True) (fun _ => True) result result :=
  .unrestricted result (fun _ _ _ => trivial) fun _ => trivial

theorem Covers.runClosure_eq {left right : Store} (covers : right.Covers left)
    (grounded : left.Grounded) (invoke : Function → List Value → Except Failure Value)
    (id : ClosureId) (args : List Value) :
    right.runClosure invoke id args = left.runClosure invoke id args := by
  have sameClosure : right.closure? id = left.closure? id := by
    simp only [closure?, covers.closures]
  rw [runClosure, runClosure, sameClosure]
  cases found : left.closure? id with
  | none => rfl
  | some closure =>
      have alike : (NodeLaw.ground left).Alike (fun _ => True) (fun _ => True) args left right
          invoke invoke := by
        refine ⟨fun _ _ => trivial, fun _ _ _ _ => trivial, ?_, ?_, ?_, ?_, ?_⟩
        · intro index _
          exact coincide_any _
        · intro scope name inStore
          have sameValue := lookup?_congr name fun id idMem => covers.frames id (inStore id idMem)
          rw [lookup_congr sameValue]
          exact coincide_any _
        · intro placeholder _
          rw [resolve_congr (covers.closureId?_eq (.placeholder placeholder))]
          exact .unrestricted _ (fun _ => trivial) fun _ => trivial
        · exact fun callee values _ _ => coincide_any _
        · exact fun placeholder values _ _ => coincide_any _
      have sameResult := ((grounded id closure found).coincide alike).1
      simp only [sameResult]

/-- Whatever is called in a grounded store, frames that are added to it make no difference. -/
theorem Covers.call_eq {left right : Store} (covers : right.Covers left) (grounded : left.Grounded)
    (depth : Nat) : right.call depth = left.call depth := by
  induction depth with
  | zero => rfl
  | succ depth ih =>
      funext callee args
      cases callee with
      | builtin builtin =>
          rw [call, call, runBuiltin, runBuiltin, ih]
          split
          · exact (Primitive.coincide_run (fun _ _ => trivial)
              (fun callee _ => covers.closureId?_eq callee)
              (fun callee values _ _ => coincide_any _) builtin.primitive
              fun _ _ _ _ => trivial).1
          · rfl
      | closure id =>
          rw [call, call, ih]
          exact covers.runClosure_eq grounded (left.call depth) id args
      | placeholder placeholder =>
          rw [call, call, ih, resolve_congr (covers.closureId?_eq (.placeholder placeholder))]
          congr 1
          funext id
          exact covers.runClosure_eq grounded (left.call depth) id args

end Store

end ExactLisp
