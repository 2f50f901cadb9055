import ExactLisp.Proofs.Mirroring
import ExactLisp.Proofs.Sound

/-!
# Changes elsewhere in a store

Evaluation in one scope leaves all frames outside of it as they were, and adds functions and cells
behind those that exist (`Store.Spares`). So a store that mirrors another one goes on to mirror it
when something happens outside of the frames that correspond; only the identities that it will give
out next have to be corrected (`Store.Mirrors.spared`).
-/

namespace ExactLisp

open Evaluation

/-! ### Renamings that agree on a store -/

/-- Two renamings give everything in a store the same identities. -/
structure Renaming.Agrees (aliases others : Renaming) (store : Store) : Prop where
  frame : others.frame = aliases.frame
  closure : ∀ id < store.closures.size, others.closure id = aliases.closure id
  cell : ∀ id < store.cells.size, others.cell id = aliases.cell id

/-- The frame mirrors another one. -/
def Renaming.Taken (aliases : Renaming) (id : FrameId) : Prop :=
  ∃ mine, aliases.frame mine = id

namespace Renaming.Agrees

variable {aliases others : Renaming} {store : Store}

theorem refl (aliases : Renaming) (store : Store) : aliases.Agrees aliases store :=
  ⟨rfl, fun _ _ => rfl, fun _ _ => rfl⟩

theorem trans {third : Renaming} (first : aliases.Agrees others store)
    (second : others.Agrees third store) : aliases.Agrees third store := by
  refine ⟨second.frame.trans first.frame, ?_, ?_⟩
  · intro id inStore
    exact (second.closure id inStore).trans (first.closure id inStore)
  · intro id inStore
    exact (second.cell id inStore).trans (first.cell id inStore)

theorem scope (agrees : aliases.Agrees others store) (scope : Scope) :
    scope.rename others = scope.rename aliases := by
  rw [Scope.rename, Scope.rename, agrees.frame]

theorem value (agrees : aliases.Agrees others store) {value : Value} (known : value.Known store) :
    value.rename others = value.rename aliases := by
  induction value with
  | list items ih =>
      have knownItems := Value.all_list.mp known
      simp only [Value.rename, Value.renameEach_eq_map, Value.list.injEq]
      apply List.map_congr_left
      intro item itemMem
      exact ih item itemMem (knownItems item itemMem)
  | function callee =>
      have known := Value.all_function.mp known
      cases callee with
      | builtin shared => simp only [Value.rename, Function.rename, agrees.frame]
      | closure id => simp only [Value.rename, Function.rename, agrees.closure id known]
      | placeholder reference => exact absurd known not_false
  | _ => rfl

theorem placeholder (agrees : aliases.Agrees others store) {placeholder : Placeholder}
    (inStore : placeholder.cell < store.cells.size) :
    placeholder.rename others = placeholder.rename aliases := by
  rw [Placeholder.rename, Placeholder.rename, agrees.cell _ inStore]

end Renaming.Agrees

theorem Store.closure?_eq_none {store : Store} {id : ClosureId}
    (outside : store.closures.size ≤ id) : store.closure? id = none :=
  Array.getElem?_eq_none outside

theorem Store.referent?_eq_none {store : Store} {placeholder : Placeholder}
    (outside : store.cells.size ≤ placeholder.cell) : store.referent? placeholder = none := by
  rw [referent?, Array.getElem?_eq_none outside]
  rfl

theorem Store.cell_lt_of_referent? {store : Store} {placeholder : Placeholder} {id : ClosureId}
    (refers : store.referent? placeholder = some id) : placeholder.cell < store.cells.size := by
  by_contra outside
  rw [referent?_eq_none (Nat.le_of_not_lt outside)] at refers
  cases refers

theorem Renaming.Agrees.body {aliases others : Renaming} {store : Store} {id : ClosureId}
    {arity : Nat} {node : Node} (agrees : aliases.Agrees others store)
    (obeys : node.Obeys (store.bodyLaw id arity)) : node.rename others = node.rename aliases := by
  induction obeys with
  | constant known => simp only [Node.rename, agrees.value known]
  | argument => rfl
  | late => simp only [Node.rename, agrees.scope]
  | itself refers =>
      simp only [Node.rename, agrees.placeholder (Store.cell_lt_of_referent? refers)]
  | call _ _ ihHead ihArgs =>
      simp only [Node.rename, Node.renameEach_eq_map, ihHead, List.map_congr_left ihArgs]
  | callItself refers _ ihArgs =>
      simp only [Node.rename, Node.renameEach_eq_map, Value.rename, Function.rename,
        agrees.placeholder (Store.cell_lt_of_referent? refers), List.map_congr_left ihArgs]
  | sequence _ ih => simp only [Node.rename, Node.renameEach_eq_map, List.map_congr_left ih]
  | branch _ _ _ ihTest ihTrue ihFalse => simp only [Node.rename, ihTest, ihTrue, ihFalse]
  | quoted _ ih => simp only [Node.rename, ih]
  | list _ ih => simp only [Node.rename, Node.renameEach_eq_map, List.map_congr_left ih]

/-! ### Changes that spare some frames -/

/-- The store grows, and what it held stays as it was, except for frames that need not be kept. -/
structure Store.Spares (kept : FrameId → Prop) (before after : Store) : Prop where
  grows : before.Grows after
  cells : before.cells.size ≤ after.cells.size
  referents : ∀ placeholder : Placeholder, placeholder.cell < before.cells.size →
    after.referent? placeholder = before.referent? placeholder
  frames : ∀ id name, kept id → (after.frame id).get? name = (before.frame id).get? name

namespace Store

variable {kept : FrameId → Prop} {scope : Scope} {defines assigns : String → Prop}
  {before after : Store}

theorem Spares.refl (kept : FrameId → Prop) (store : Store) : store.Spares kept store :=
  ⟨.refl store, Nat.le_refl _, fun _ _ => rfl, fun _ _ _ => rfl⟩

theorem Spares.trans {final : Store} (first : before.Spares kept after)
    (second : after.Spares kept final) : before.Spares kept final := by
  refine ⟨first.grows.trans second.grows, Nat.le_trans first.cells second.cells, ?_, ?_⟩
  · intro placeholder inStore
    rw [second.referents placeholder (Nat.lt_of_lt_of_le inStore first.cells),
      first.referents placeholder inStore]
  · intro id name isKept
    rw [second.frames id name isKept, first.frames id name isKept]

/-- Renamings that agree on all that a store has become agree on what it was. -/
theorem Spares.agrees {aliases others : Renaming} (spares : before.Spares kept after)
    (agrees : aliases.Agrees others after) : aliases.Agrees others before := by
  refine ⟨agrees.frame, ?_, ?_⟩
  · intro id inStore
    exact agrees.closure id (Nat.lt_of_lt_of_le inStore spares.grows.size_closures_le)
  · intro id inStore
    exact agrees.cell id (Nat.lt_of_lt_of_le inStore spares.cells)

theorem spares_addFrame (store : Store) (bindings : Bindings)
    (isNew : ¬kept store.frames.size) : store.Spares kept (store.addFrame bindings).2 := by
  refine ⟨grows_addFrame store bindings, Nat.le_refl _, fun _ _ => rfl, ?_⟩
  intro id name isKept
  rw [frame_addFrame, if_neg]
  rintro rfl
  exact isNew isKept

/-- Evaluation in a scope spares all frames outside of it. -/
theorem Effect.spares (effect : Effect scope defines assigns before after)
    (outside : ∀ id ∈ scope.chain, ¬kept id) : before.Spares kept after := by
  have cells : before.cells.size ≤ after.cells.size ∧
      ∀ placeholder : Placeholder, placeholder.cell < before.cells.size →
        after.referent? placeholder = before.referent? placeholder := by
    cases effect with
    | define value _ => exact ⟨Nat.le_refl _, fun _ _ => rfl⟩
    | assign _ bound =>
        rcases eq_bind_of_set bound with ⟨owner, _, _, rfl⟩
        exact ⟨Nat.le_refl _, fun _ _ => rfl⟩
    | lambda done =>
        refine ⟨Nat.le_of_eq (by rw [done.cells_eq]), ?_⟩
        intro placeholder _
        rw [referent?, referent?, done.cells_eq]
    | @defun _ name _ _ _ _ done =>
        constructor
        · have refers := done.referent?_eq ⟨name, before.cells.size⟩
          rw [if_pos rfl] at refers
          exact Nat.le_of_lt (cell_lt_of_referent? refers)
        · intro placeholder inStore
          rw [done.referent?_eq, if_neg (Nat.ne_of_lt inStore)]
  refine ⟨effect.grows, cells.1, cells.2, ?_⟩
  intro id name isKept
  by_contra differs
  rcases effect.target_of_get?_ne differs with ⟨rfl, _⟩ | ⟨inScope, _, _⟩
  · exact outside _ List.mem_cons_self isKept
  · exact outside id inScope isKept

/-- Any number of changes by evaluation in a scope. -/
abbrev Changes (scope : Scope) : Store → Store → Prop :=
  Relation.ReflTransGen (Effect scope (fun _ => True) (fun _ => True))

theorem spares_of_changes (changes : Changes scope before after)
    (outside : ∀ id ∈ scope.chain, ¬kept id) : before.Spares kept after := by
  induction changes with
  | refl => exact .refl kept before
  | tail _ effect ih => exact ih.trans (effect.spares outside)

/-- Every cell that refers to a function refers to one that exists. -/
def Resolved (store : Store) : Prop :=
  ∀ placeholder id, store.referent? placeholder = some id → id < store.closures.size

theorem Effect.resolved (effect : Effect scope defines assigns before after)
    (resolved : before.Resolved) : after.Resolved := by
  intro placeholder id refers
  cases effect with
  | define value _ => exact resolved placeholder id refers
  | assign _ bound =>
      rcases eq_bind_of_set bound with ⟨owner, _, _, rfl⟩
      exact resolved placeholder id refers
  | lambda done =>
      rw [referent?, done.cells_eq] at refers
      exact Nat.lt_of_lt_of_le (resolved placeholder id refers) done.grows.size_closures_le
  | defun _ done =>
      rw [done.referent?_eq] at refers
      split at refers
      · cases refers
        rcases done.compiled with ⟨node, _, closures⟩
        rw [← closure?_isSome_iff, closures, if_pos rfl]
        rfl
      · exact Nat.lt_of_lt_of_le (resolved placeholder id refers) done.grows.size_closures_le

theorem resolved_of_changes (changes : Changes scope before after) (resolved : before.Resolved) :
    after.Resolved := by
  induction changes with
  | refl => exact resolved
  | tail _ effect ih => exact effect.resolved ih

end Store

/-! ### Correcting a renaming -/

/-- Sends everything behind what is there, in order. -/
def shift (distance : Nat) : Nat ↪ Nat :=
  ⟨fun id => distance + id, fun _ _ => Nat.add_left_cancel⟩

/-- Sends what is not below a bound to a new place, in order. -/
def redirect (embedding : Nat ↪ Nat) (bound target : Nat)
    (below : ∀ id < bound, embedding id < target) : Nat ↪ Nat where
  toFun id := if id < bound then embedding id else target + (id - bound)
  inj' := by
    intro first second same
    simp only at same
    split at same <;> split at same
    · exact embedding.injective same
    · have inside := below first ‹_›
      omega
    · have inside := below second ‹_›
      omega
    · omega

theorem redirect_of_lt {embedding : Nat ↪ Nat} {bound target : Nat}
    (below : ∀ id < bound, embedding id < target) {id : Nat} (inside : id < bound) :
    redirect embedding bound target below id = embedding id :=
  if_pos inside

theorem redirect_add {embedding : Nat ↪ Nat} {bound target : Nat}
    (below : ∀ id < bound, embedding id < target) (count : Nat) :
    redirect embedding bound target below (bound + count) = target + count := by
  have outside : ¬bound + count < bound := Nat.not_lt.mpr (Nat.le_add_right _ _)
  exact (if_neg outside).trans (by rw [Nat.add_sub_cancel_left])

theorem le_redirect {embedding : Nat ↪ Nat} {bound target : Nat}
    (below : ∀ id < bound, embedding id < target) {id : Nat} (outside : bound ≤ id) :
    target ≤ redirect embedding bound target below id := by
  have later := redirect_add below (id - bound)
  rw [Nat.add_sub_cancel' outside] at later
  exact later ▸ Nat.le_add_right _ _

theorem exists_embedding {first bound : Nat} (inBound : first ≤ bound) :
    ∃ embedding : Nat ↪ Nat, embedding 0 = first ∧ ∀ id, 1 ≤ id → bound < embedding id := by
  have below : ∀ id < 1, shift first id < bound + 1 := by
    intro id isFirst
    change first + id < bound + 1
    omega
  exact ⟨redirect (shift first) 1 (bound + 1) below, redirect_of_lt below Nat.zero_lt_one,
    fun _ notFirst => le_redirect below notFirst⟩

namespace Store.Mirrors

variable {aliases : Renaming} {left right : Store}

theorem closure_lt (mirrors : left.Mirrors aliases right) {id : ClosureId}
    (inStore : id < left.closures.size) : aliases.closure id < right.closures.size := by
  rw [← closure?_isSome_iff] at inStore ⊢
  rw [mirrors.closures, Option.isSome_map]
  exact inStore

/-- If the right store grows and spares the frames that mirror those of the left one, it goes on to
mirror the left store, under identities that agree on what there is. -/
theorem spared (mirrors : left.Mirrors aliases right) (sound : left.Sound)
    (resolved : left.Resolved) {final : Store}
    (spares : right.Spares aliases.Taken final)
    (inFrames : ∀ id, aliases.frame id < final.frames.size ↔ id < left.frames.size) :
    ∃ others : Renaming, aliases.Agrees others left ∧ left.Mirrors others final := by
  have closuresBelow : ∀ id < left.closures.size, aliases.closure id < final.closures.size :=
    fun id inStore => Nat.lt_of_lt_of_le (mirrors.closure_lt inStore) spares.grows.size_closures_le
  have cellsBelow : ∀ id < left.cells.size, aliases.cell id < final.cells.size :=
    fun id inStore => Nat.lt_of_lt_of_le (mirrors.cell_lt inStore) spares.cells
  let others : Renaming := ⟨aliases.frame,
    redirect aliases.closure left.closures.size final.closures.size closuresBelow,
    redirect aliases.cell left.cells.size final.cells.size cellsBelow⟩
  have agrees : aliases.Agrees others left :=
    ⟨rfl, fun _ inStore => redirect_of_lt closuresBelow inStore,
      fun _ inStore => redirect_of_lt cellsBelow inStore⟩
  refine ⟨others, agrees, ?_, ?_, ?_, inFrames, redirect_add closuresBelow,
    redirect_add cellsBelow⟩
  · intro id name
    rw [spares.frames _ name ⟨id, rfl⟩, mirrors.frames]
    cases found : (left.frame id).get? name with
    | none => rfl
    | some value => simp only [Option.map_some, agrees.value (sound.values id name value found)]
  · intro id
    by_cases inStore : id < left.closures.size
    · rcases Option.isSome_iff_exists.mp ((left.closure?_isSome_iff id).mpr inStore) with
        ⟨closure, found⟩
      have mirrored := mirrors.closures id
      rw [found, Option.map_some] at mirrored
      have sameBody := agrees.body (sound.bodies id closure found)
      rw [agrees.closure id inStore, spares.grows.closures _ _ mirrored, found, Option.map_some,
        Closure.rename, Closure.rename, sameBody]
    · have outside := Nat.le_of_not_lt inStore
      rw [closure?_eq_none outside, closure?_eq_none (le_redirect closuresBelow outside)]
      rfl
  · intro placeholder
    by_cases inStore : placeholder.cell < left.cells.size
    · rw [agrees.placeholder inStore, spares.referents _ (mirrors.cell_lt inStore),
        mirrors.referents]
      cases refers : left.referent? placeholder with
      | none => rfl
      | some id => simp only [Option.map_some, agrees.closure id (resolved placeholder id refers)]
    · have outside := Nat.le_of_not_lt inStore
      have outsideFinal : final.cells.size ≤ (placeholder.rename others).cell :=
        le_redirect cellsBelow outside
      rw [referent?_eq_none outside, referent?_eq_none outsideFinal]
      rfl

end Store.Mirrors

end ExactLisp
