import ExactLisp.Proofs.Meaning
import ExactLisp.Workbench

/-!
# Forward references as shared weak references

All references of one cell are one: they refer to the function that was last put into the cell
through any of them, as long as a name holds that function, and to nothing after that. This is shown
for every run of steps on a workbench (`Workbench.coherent_after`) from what one step does to a cell
(`Workbench.referent?_perform_eq_some_iff`): a step fills the cell, or takes the last name from the
function that the cell refers to, or leaves the cell as it is.

What is read through a reference follows from the function that it refers to, if any.
-/

namespace ExactLisp

/-! ### What a reference stands for -/

namespace Store

variable {store : Store} {placeholder : Placeholder}

theorem resolve_eq_ok_iff {id : ClosureId} :
    store.resolve placeholder = .ok id ↔ store.referent? placeholder = some id := by
  rw [resolve]
  cases store.referent? placeholder <;> simp

theorem sameClosure_eq_true_iff {f g : Function} :
    store.sameClosure f g ↔ ∃ id, store.closureId? f = some id ∧ store.closureId? g = some id := by
  rw [sameClosure]
  cases store.closureId? f with
  | none => simp
  | some first =>
      cases store.closureId? g with
      | none => simp
      | some second => simp [@eq_comm _ second]

theorem sameFunction_comm (f g : Function) : store.sameFunction f g = store.sameFunction g f := by
  have closureComm : ∀ f g, store.sameClosure f g = store.sameClosure g f := by
    intro f g
    rw [Bool.eq_iff_iff, sameClosure_eq_true_iff, sameClosure_eq_true_iff]
    simp only [and_comm]
  cases f <;> cases g <;>
    simp only [sameFunction, closureComm, Bool.beq_comm]

/-- A forward reference is one with the references of its cell, and with everything that stands for
the function it refers to. -/
theorem sameFunction_placeholder_iff {other : Function} :
    store.sameFunction (.placeholder placeholder) other ↔
      (∃ twin, other = .placeholder twin ∧ twin.cell = placeholder.cell) ∨
      ∃ id, store.referent? placeholder = some id ∧ store.closureId? other = some id := by
  cases other with
  | placeholder twin =>
      simp [sameFunction, sameClosure_eq_true_iff, closureId?, @eq_comm _ twin.cell]
  | builtin builtin => simp [sameFunction, sameClosure_eq_true_iff, closureId?]
  | closure id => simp [sameFunction, sameClosure_eq_true_iff, closureId?]

/-- A forward reference that refers to a function is called, shown and compared as that function. -/
structure StandsFor (store : Store) (placeholder : Placeholder) (id : ClosureId) : Prop where
  resolves : store.resolve placeholder = .ok id
  calls : ∀ depth args,
    store.call depth (.placeholder placeholder) args = store.call depth (.closure id) args
  shows : store.displayFunction (.placeholder placeholder) = store.displayFunction (.closure id)
  behind : store.closureId? (.placeholder placeholder) = store.closureId? (.closure id)
  same : ∀ other, store.sameFunction (.placeholder placeholder) other ↔
    store.closureId? other = some id
  same_symm : ∀ other, store.sameFunction other (.placeholder placeholder) ↔
    store.closureId? other = some id

/-- A forward reference that refers to nothing cannot be called, and it is one with the references
of its cell only. -/
structure StandsForNothing (store : Store) (placeholder : Placeholder) : Prop where
  fails : store.resolve placeholder = .error (.unresolvedFunction placeholder.name)
  calls : ∀ depth args, store.call (depth + 1) (.placeholder placeholder) args =
    .error (.error (.unresolvedFunction placeholder.name))
  behind : store.closureId? (.placeholder placeholder) = none
  same : ∀ other, store.sameFunction (.placeholder placeholder) other ↔
    ∃ twin, other = .placeholder twin ∧ twin.cell = placeholder.cell
  same_symm : ∀ other, store.sameFunction other (.placeholder placeholder) ↔
    ∃ twin, other = .placeholder twin ∧ twin.cell = placeholder.cell

theorem standsFor_of_referent? {id : ClosureId}
    (refers : store.referent? placeholder = some id) : store.StandsFor placeholder id := by
  have same : ∀ other, store.sameFunction (.placeholder placeholder) other ↔
      store.closureId? other = some id := by
    intro other
    rw [sameFunction_placeholder_iff]
    constructor
    · rintro (⟨twin, rfl, sameCell⟩ | ⟨found, isFound, behind⟩)
      · rw [closureId?, referent?, sameCell]
        exact refers
      · rw [← isFound, refers] at behind
        exact behind
    · intro behind
      exact Or.inr ⟨id, refers, behind⟩
  refine ⟨resolve_eq_ok_iff.mpr refers, call_placeholder refers, ?_, refers, same, ?_⟩
  · simp only [displayFunction, refers]
  · intro other
    rw [sameFunction_comm]
    exact same other

theorem standsForNothing_of_referent? (unfilled : store.referent? placeholder = none) :
    store.StandsForNothing placeholder := by
  have fails : store.resolve placeholder = .error (.unresolvedFunction placeholder.name) := by
    rw [resolve, unfilled]
  have same : ∀ other, store.sameFunction (.placeholder placeholder) other ↔
      ∃ twin, other = .placeholder twin ∧ twin.cell = placeholder.cell := by
    intro other
    simp [sameFunction_placeholder_iff, unfilled]
  refine ⟨fails, ?_, unfilled, same, ?_⟩
  · intro depth args
    rw [call, fails]
    rfl
  · intro other
    rw [sameFunction_comm]
    exact same other

theorem referent?_expire_eq_some_iff {id found : ClosureId} :
    (store.expire id).referent? placeholder = some found ↔
      store.referent? placeholder = some found ∧ some id ≠ some found := by
  simp only [referent?, expire, Array.getElem?_map]
  rcases store.cells[placeholder.cell]? with _ | held
  · simp
  · by_cases expires : held = some id
    · simp [expires]
    · simp only [Option.map_some, if_neg expires, Option.getD_some]
      constructor
      · rintro rfl
        exact ⟨rfl, Ne.symm expires⟩
      · exact And.left

end Store

/-! ### What a step does -/

namespace Workbench

/-- The function that a step puts into a cell. -/
def filled? (bench : Workbench) (cell : CellId) : Step → Option ClosureId
  | .fill reference handle =>
    match bench.references.get? reference, bench.functions.get? handle with
    | some placeholder, some id => if placeholder.cell = cell then some id else none
    | _, _ => none
  | _ => none

/-- Some name holds a function. -/
def Holds (bench : Workbench) (id : ClosureId) : Prop :=
  ∃ handle, bench.functions.get? handle = some id

/-- A step takes the last name from a function. -/
def Loses (bench : Workbench) (step : Step) (id : ClosureId) : Prop :=
  bench.Holds id ∧ ¬(bench.perform step).Holds id

variable {bench : Workbench}

theorem isHeld_iff {functions : Assoc String ClosureId} {id : ClosureId} :
    isHeld functions id ↔ ∃ handle, functions.get? handle = some id := by
  simp only [isHeld, List.any_eq_true, beq_iff_eq, Assoc.mem_keys_iff]
  refine exists_congr fun handle => and_iff_right_of_imp fun held => ?_
  rw [Assoc.contains, held]
  rfl

theorem perform_make (handle : String) (closure : Closure) : bench.perform (.make handle closure) =
    { bench with store := (bench.store.addClosure closure).2 }.rebind handle
      (some bench.store.closures.size) :=
  rfl

theorem perform_release (handle : String) :
    bench.perform (.release handle) = bench.rebind handle none :=
  rfl

/-! #### Rebinding -/

section Rebind

variable (bench) (handle : String) (held? : Option ClosureId)

theorem references_rebind : (bench.rebind handle held?).references = bench.references :=
  rfl

theorem get?_functions_rebind (asked : String) : (bench.rebind handle held?).functions.get? asked =
    if asked = handle then held? else bench.functions.get? asked := by
  cases held? with
  | none => exact Assoc.get?_erase bench.functions handle asked
  | some id => exact Assoc.get?_insert bench.functions handle id asked

theorem closures_rebind : (bench.rebind handle held?).store.closures = bench.store.closures := by
  simp only [rebind]
  split <;> rfl

theorem size_cells_rebind :
    (bench.rebind handle held?).store.cells.size = bench.store.cells.size := by
  simp only [rebind]
  split <;> simp [Store.expire]

/-- What is rebound is lost to the references unless another name holds it. -/
theorem referent?_rebind_eq_some_iff (asked : Placeholder) (id : ClosureId) :
    (bench.rebind handle held?).store.referent? asked = some id ↔
      bench.store.referent? asked = some id ∧
        ¬(bench.functions.get? handle = some id ∧ ¬(bench.rebind handle held?).Holds id) := by
  simp only [Holds, ← isHeld_iff]
  simp only [rebind]
  generalize reassign bench.functions handle held? = functions
  cases bench.functions.get? handle with
  | none => simp
  | some old =>
      by_cases stillHeld : isHeld functions old
      · rw [Option.filter_some, if_neg (by simp [stillHeld])]
        simp only [Option.some.injEq]
        refine (and_iff_left ?_).symm
        rintro ⟨rfl, isLost⟩
        exact isLost stillHeld
      · rw [Option.filter_some, if_pos (by simp [stillHeld])]
        rw [Store.referent?_expire_eq_some_iff, Option.some.injEq]
        refine and_congr_right fun _ => not_congr ⟨?_, fun lost => congrArg some lost.1⟩
        rintro ⟨⟩
        exact ⟨rfl, stillHeld⟩

/-- A function that loses its name by rebinding had this name. -/
theorem holds_rebind_of_ne {id : ClosureId} (holds : bench.Holds id)
    (other : bench.functions.get? handle ≠ some id) : (bench.rebind handle held?).Holds id := by
  rcases holds with ⟨asked, held⟩
  refine ⟨asked, ?_⟩
  rw [get?_functions_rebind, if_neg ?_, held]
  rintro rfl
  exact other held

end Rebind

/-- What the forward references and the names of a workbench are like after any steps: they denote
cells and functions that exist, and two references of one cell are the same. -/
structure Orderly (bench : Workbench) : Prop where
  cell_lt : ∀ handle placeholder, bench.references.get? handle = some placeholder →
    placeholder.cell < bench.store.cells.size
  closure_lt : ∀ handle id, bench.functions.get? handle = some id →
    id < bench.store.closures.size
  oneReference : ∀ first second placeholder twin,
    bench.references.get? first = some placeholder → bench.references.get? second = some twin →
    placeholder.cell = twin.cell → placeholder = twin

/-- A workbench stays orderly if a reference is put under a name, as long as it is of a new cell or
is there already. -/
theorem Orderly.refer (orderly : bench.Orderly) {store : Store} {handle : String}
    {placeholder : Placeholder} (sameClosures : store.closures = bench.store.closures)
    (moreCells : bench.store.cells.size ≤ store.cells.size)
    (inStore : placeholder.cell < store.cells.size)
    (oneReference : ∀ other twin, bench.references.get? other = some twin →
      placeholder.cell = twin.cell → placeholder = twin) :
    Orderly { bench with store, references := bench.references.insert handle placeholder } where
  cell_lt := by
    intro asked found isFound
    rw [Assoc.get?_insert] at isFound
    split at isFound
    · rw [← Option.some.inj isFound]
      exact inStore
    · exact Nat.lt_of_lt_of_le (orderly.cell_lt asked found isFound) moreCells
  closure_lt := by
    intro asked id held
    rw [sameClosures]
    exact orderly.closure_lt asked id held
  oneReference := by
    intro first second one twin isOne isTwin sameCell
    rw [Assoc.get?_insert] at isOne isTwin
    split at isOne <;> split at isTwin
    · exact Option.some.inj (isOne.symm.trans isTwin)
    · cases isOne
      exact oneReference second twin isTwin sameCell
    · cases isTwin
      exact (oneReference first one isOne sameCell.symm).symm
    · exact orderly.oneReference first second one twin isOne isTwin sameCell

theorem Orderly.rebind (orderly : bench.Orderly) (handle : String) {held? : Option ClosureId}
    (inStore : ∀ id ∈ held?, id < bench.store.closures.size) :
    (bench.rebind handle held?).Orderly where
  cell_lt := by
    rw [references_rebind, size_cells_rebind]
    exact orderly.cell_lt
  closure_lt := by
    intro asked id held
    rw [get?_functions_rebind] at held
    rw [closures_rebind]
    split at held
    · exact inStore id held
    · exact orderly.closure_lt asked id held
  oneReference := orderly.oneReference

theorem Orderly.addClosure (orderly : bench.Orderly) (closure : Closure) :
    Orderly { bench with store := (bench.store.addClosure closure).2 } where
  cell_lt := orderly.cell_lt
  closure_lt := by
    intro handle id held
    simp only [Store.addClosure, Array.size_push]
    exact Nat.lt_succ_of_lt (orderly.closure_lt handle id held)
  oneReference := orderly.oneReference

theorem Orderly.perform (orderly : bench.Orderly) (step : Step) : (bench.perform step).Orderly := by
  cases step with
  | declare handle name =>
      refine orderly.refer rfl ?_ ?_ ?_
      · simp
      · simp
      · intro other twin isTwin sameCell
        exact absurd (sameCell ▸ orderly.cell_lt other twin isTwin) (Nat.lt_irrefl _)
  | copy handle source =>
      rw [Workbench.perform, copy]
      cases found : bench.references.get? source with
      | none => exact orderly
      | some placeholder =>
          exact orderly.refer rfl (Nat.le_refl _) (orderly.cell_lt source placeholder found)
            fun other twin => orderly.oneReference source other placeholder twin found
  | make handle closure =>
      rw [perform_make]
      refine (orderly.addClosure closure).rebind handle ?_
      simp [Store.addClosure]
  | share handle source =>
      rw [Workbench.perform, share]
      cases found : bench.functions.get? source with
      | none => exact orderly
      | some shared =>
          refine orderly.rebind handle ?_
          rintro _ ⟨⟩
          exact orderly.closure_lt source shared found
  | fill reference handle =>
      rw [Workbench.perform, Workbench.fill]
      split
      · refine ⟨?_, orderly.closure_lt, orderly.oneReference⟩
        simpa [Store.fill] using orderly.cell_lt
      · exact orderly
  | release handle =>
      rw [perform_release]
      exact orderly.rebind handle (by simp)

/-- A step that fills nothing leaves what the references refer to, unless the function loses its
last name. -/
theorem referent?_of_rebind (changed : Workbench) {step : Step} {handle : String}
    {held? : Option ClosureId} {asked : Placeholder} {id : ClosureId}
    (sameStore : changed.store.cells = bench.store.cells)
    (sameFunctions : changed.functions = bench.functions)
    (rebinds : bench.perform step = changed.rebind handle held?) :
    (bench.perform step).store.referent? asked = some id ↔
      bench.store.referent? asked = some id ∧ ¬bench.Loses step id := by
  have sameReferent : changed.store.referent? asked = bench.store.referent? asked := by
    rw [Store.referent?, sameStore, Store.referent?]
  have sameHolds : changed.Holds id ↔ bench.Holds id := by
    rw [Holds, sameFunctions, Holds]
  rw [Loses, rebinds, referent?_rebind_eq_some_iff, sameReferent, sameFunctions]
  refine and_congr_right fun _ => not_congr (and_congr_left fun isLost => ?_)
  constructor
  · exact fun held => ⟨handle, held⟩
  · intro holds
    by_contra other
    rw [← sameFunctions] at other
    exact isLost (changed.holds_rebind_of_ne handle held? (sameHolds.mpr holds) other)

/-- A step puts a function into a cell, or empties it because the function that it refers to loses
its last name, or leaves it as it is. -/
theorem referent?_perform_eq_some_iff (orderly : bench.Orderly) {step : Step}
    {asked : Placeholder} {id : ClosureId} :
    (bench.perform step).store.referent? asked = some id ↔
      bench.filled? asked.cell step = some id ∨ bench.filled? asked.cell step = none ∧
        bench.store.referent? asked = some id ∧ ¬bench.Loses step id := by
  have kept : (bench.perform step).functions = bench.functions → ¬bench.Loses step id := by
    rintro same ⟨holds, isLost⟩
    rw [Holds, same] at isLost
    exact isLost holds
  cases step with
  | declare handle name =>
      simp only [filled?, reduceCtorEq, false_or, true_and, kept rfl, not_false_eq_true, and_true]
      simp only [perform, declare]
      rw [Store.referent?_addPlaceholder]
  | copy handle source =>
      have same : (bench.perform (.copy handle source)).functions = bench.functions := by
        simp only [perform, copy]
        split <;> rfl
      simp only [filled?, reduceCtorEq, false_or, true_and, kept same, not_false_eq_true, and_true]
      simp only [perform, copy]
      cases bench.references.get? source <;> rfl
  | make handle closure =>
      simp only [filled?, reduceCtorEq, false_or, true_and]
      exact referent?_of_rebind { bench with store := (bench.store.addClosure closure).2 } rfl rfl
        (perform_make handle closure)
  | share handle source =>
      simp only [filled?, reduceCtorEq, false_or, true_and]
      cases found : bench.functions.get? source with
      | none =>
          have same : bench.perform (.share handle source) = bench := by
            rw [perform, share, found]
          simp [Loses, same]
      | some shared =>
          have rebinds : bench.perform (.share handle source) =
              bench.rebind handle (some shared) := by rw [perform, share, found]
          exact referent?_of_rebind bench rfl rfl rebinds
  | fill reference handle =>
      have same : (bench.perform (.fill reference handle)).functions = bench.functions := by
        simp only [perform, fill]
        split <;> rfl
      simp only [kept same, not_false_eq_true, and_true]
      simp only [perform, fill, filled?]
      cases found : bench.references.get? reference with
      | none => simp
      | some placeholder =>
          cases held : bench.functions.get? handle with
          | none => simp
          | some filling =>
              simp only [Store.referent?_fill _ _ asked filling (orderly.cell_lt _ _ found)]
              by_cases sameCell : asked.cell = placeholder.cell
              · simp [sameCell]
              · simp [sameCell, Ne.symm sameCell]
  | release handle =>
      simp only [filled?, reduceCtorEq, false_or, true_and]
      exact referent?_of_rebind bench rfl rfl (perform_release handle)

/-- Of the functions that there are, none gets a name by a step if it has none. -/
theorem holds_of_perform {step : Step} {id : ClosureId}
    (made : id < bench.store.closures.size) (holds : (bench.perform step).Holds id) :
    bench.Holds id := by
  have rebound : ∀ (changed : Workbench) {handle : String} {held? : Option ClosureId},
      (∀ shared ∈ held?, shared = id → bench.Holds id) → changed.functions = bench.functions →
      (changed.rebind handle held?).Holds id → bench.Holds id := by
    rintro changed handle held? fromHeld sameFunctions ⟨asked, held⟩
    rw [get?_functions_rebind, sameFunctions] at held
    split at held
    · exact fromHeld id held rfl
    · exact ⟨asked, held⟩
  cases step with
  | declare handle name => exact holds
  | copy handle source =>
      simp only [perform, copy] at holds
      split at holds <;> exact holds
  | make handle closure =>
      rw [perform_make] at holds
      refine rebound _ ?_ rfl holds
      -- the number of the new function is one that no function had before
      rintro _ ⟨⟩ rfl
      exact absurd made (Nat.lt_irrefl _)
  | share handle source =>
      simp only [perform, share] at holds
      cases found : bench.functions.get? source with
      | none => rwa [found] at holds
      | some shared =>
          rw [found] at holds
          refine rebound bench ?_ rfl holds
          rintro _ ⟨⟩ rfl
          exact ⟨source, found⟩
  | fill reference handle =>
      simp only [perform, fill] at holds
      split at holds <;> exact holds
  | release handle =>
      rw [perform_release] at holds
      exact rebound bench (by simp) rfl holds

/-! ### Runs of steps -/

/-- The workbench after steps have been carried out on an empty one. -/
def after (steps : List Step) : Workbench :=
  steps.foldl perform initial

/-- The function given in the last fill of a cell, if any of the steps fills it. -/
def lastFill? (cell : CellId) : Workbench → List Step → Option ClosureId
  | _, [] => none
  | bench, step :: steps =>
    (lastFill? cell (bench.perform step) steps).or (bench.filled? cell step)

/-- A function that is put into a cell has a name, before and after that. -/
theorem holds_of_filled? {cell : CellId} {step : Step} {id : ClosureId}
    (filled : bench.filled? cell step = some id) :
    bench.Holds id ∧ (bench.perform step).Holds id := by
  cases step with
  | fill reference handle =>
      simp only [filled?] at filled
      split at filled
      · rename_i held
        split at filled
        · cases filled
          refine ⟨⟨handle, held⟩, handle, ?_⟩
          simp only [perform, fill]
          split <;> exact held
        · cases filled
      · cases filled
  | _ => cases filled

theorem size_closures_perform (bench : Workbench) (step : Step) :
    bench.store.closures.size ≤ (bench.perform step).store.closures.size := by
  cases step with
  | declare handle name => exact Nat.le_refl _
  | copy handle source =>
      simp only [perform, copy]
      split <;> exact Nat.le_refl _
  | make handle closure => simp [perform, make, closures_rebind, Store.addClosure]
  | share handle source =>
      simp only [perform, share]
      split
      · exact Nat.le_of_eq (congrArg Array.size (closures_rebind bench handle _).symm)
      · exact Nat.le_refl _
  | fill reference handle =>
      simp only [perform, fill]
      split <;> exact Nat.le_refl _
  | release handle => simp [perform, release, closures_rebind]

/-- A cell refers to the function of its last fill as long as a name holds it; `fills` tells the
last fill of each cell. -/
structure Coherent (bench : Workbench) (fills : CellId → Option ClosureId) : Prop
    extends bench.Orderly where
  fill_lt : ∀ cell id, fills cell = some id → id < bench.store.closures.size
  refers_iff : ∀ placeholder id, bench.store.referent? placeholder = some id ↔
    fills placeholder.cell = some id ∧ bench.Holds id

theorem coherent_initial : initial.Coherent fun _ => none where
  cell_lt := by simp [initial]
  closure_lt := by simp [initial]
  oneReference := by simp [initial]
  fill_lt := by simp
  refers_iff := by simp [initial, Store.empty, Store.referent?]

theorem Coherent.perform {fills : CellId → Option ClosureId} (coherent : bench.Coherent fills)
    (step : Step) :
    (bench.perform step).Coherent fun cell => (bench.filled? cell step).or (fills cell) where
  toOrderly := coherent.toOrderly.perform step
  fill_lt := by
    intro cell id filled
    apply Nat.lt_of_lt_of_le ?_ (size_closures_perform bench step)
    rcases Option.or_eq_some_iff.mp filled with now | ⟨_, earlier⟩
    · rcases (holds_of_filled? now).1 with ⟨handle, held⟩
      exact coherent.closure_lt handle id held
    · exact coherent.fill_lt cell id earlier
  refers_iff := by
    intro placeholder id
    rw [referent?_perform_eq_some_iff coherent.toOrderly]
    cases now : bench.filled? placeholder.cell step with
    | some filling =>
        simp only [Option.some.injEq, reduceCtorEq, false_and, or_false, Option.some_or]
        constructor
        · rintro rfl
          exact ⟨rfl, (holds_of_filled? now).2⟩
        · exact And.left
    | none =>
        simp only [reduceCtorEq, false_or, true_and, Option.none_or, coherent.refers_iff, and_assoc]
        refine and_congr_right fun filled => ?_
        constructor
        · rintro ⟨holds, notLost⟩
          by_contra isLost
          exact notLost ⟨holds, isLost⟩
        · intro holds
          exact ⟨holds_of_perform (coherent.fill_lt _ _ filled) holds, fun lost => lost.2 holds⟩

theorem Coherent.foldl_perform {fills : CellId → Option ClosureId}
    (coherent : bench.Coherent fills) (steps : List Step) :
    (steps.foldl Workbench.perform bench).Coherent fun cell =>
      (lastFill? cell bench steps).or (fills cell) := by
  induction steps generalizing bench fills with
  | nil => exact coherent
  | cons step steps ih =>
      simp only [lastFill?, Option.or_assoc]
      exact ih (coherent.perform step)

theorem coherent_after (steps : List Step) :
    (after steps).Coherent fun cell => lastFill? cell initial steps := by
  simpa only [Option.or_none, after] using coherent_initial.foldl_perform steps

end Workbench

open Workbench in
/-- The forward references of one cell are one weak reference. After any steps, a reference is
filled exactly if it can be resolved, and it resolves to the function of the last fill of its cell
through any reference, as long as a name holds that function. While it is filled it stands for that
function wherever a function is called, shown or compared; otherwise it fails under its own name and
is one with the references of its cell only. A step changes a cell only by filling it or by taking
the last name from the function that the cell refers to. -/
theorem references_of_a_cell_are_one_weak_reference (steps : List Step) {handle : String}
    {placeholder : Placeholder}
    (isHandle : (after steps).references.get? handle = some placeholder) :
    let store := (after steps).store
    ((store.referent? placeholder).isSome ↔ ∃ id, store.resolve placeholder = .ok id) ∧
    (∀ id, store.resolve placeholder = .ok id ↔
      lastFill? placeholder.cell initial steps = some id ∧ (after steps).Holds id) ∧
    (∀ other twin, (after steps).references.get? other = some twin →
      twin.cell = placeholder.cell →
        store.referent? twin = store.referent? placeholder ∧
        store.resolve twin = store.resolve placeholder) ∧
    (∀ id, store.referent? placeholder = some id → store.StandsFor placeholder id) ∧
    (store.referent? placeholder = none → store.StandsForNothing placeholder) ∧
    ∀ step, (after steps).filled? placeholder.cell step = none →
      (∀ id, (after steps).Loses step id → store.referent? placeholder ≠ some id) →
      (after (steps ++ [step])).store.referent? placeholder = store.referent? placeholder := by
  intro store
  have coherent := coherent_after steps
  refine ⟨?_, ?_, ?_, fun id => Store.standsFor_of_referent?, Store.standsForNothing_of_referent?,
    ?_⟩
  · simp only [Store.resolve_eq_ok_iff, Option.isSome_iff_exists]
  · intro id
    rw [Store.resolve_eq_ok_iff]
    exact coherent.refers_iff placeholder id
  · intro other twin isTwin sameCell
    rw [coherent.oneReference _ _ _ _ isTwin isHandle sameCell]
    exact ⟨rfl, rfl⟩
  · intro step notFilled notLost
    rw [after, List.foldl_append]
    apply Option.ext
    intro id
    refine (referent?_perform_eq_some_iff coherent.toOrderly).trans ?_
    simp only [notFilled, reduceCtorEq, false_or, true_and]
    exact and_iff_left_of_imp fun refers lost => notLost id lost refers

open Workbench in
/-- A reference is filled through a copy of it, until the name of the function is given to
another. With a second name the function is kept for as long as that name holds it. -/
theorem reference_is_lost_with_the_name :
    let steps : List Step := [.declare "p" "f", .copy "q" "p",
      .make "c" ⟨some "f", 0, .constant .nil⟩, .fill "q" "c"]
    let rebound := steps ++ [.make "c" ⟨none, 1, .constant .nil⟩]
    let shared := steps ++ [.share "d" "c", .make "c" ⟨none, 1, .constant .nil⟩]
    (after steps).references.get? "p" = some ⟨"f", 0⟩ ∧
    (after steps).store.StandsFor ⟨"f", 0⟩ 0 ∧
    (after rebound).store.StandsForNothing ⟨"f", 0⟩ ∧
    (after shared).store.StandsFor ⟨"f", 0⟩ 0 ∧
    (after (shared ++ [.release "d"])).store.StandsForNothing ⟨"f", 0⟩ := by
  intro steps rebound shared
  have isHandle : (after steps).references.get? "p" = some ⟨"f", 0⟩ := by decide +kernel
  have isHandleRebound : (after rebound).references.get? "p" = some ⟨"f", 0⟩ := by decide +kernel
  have isHandleShared : (after shared).references.get? "p" = some ⟨"f", 0⟩ := by decide +kernel
  have isHandleReleased : (after (shared ++ [.release "d"])).references.get? "p" =
      some ⟨"f", 0⟩ := by decide +kernel
  have filled := references_of_a_cell_are_one_weak_reference steps isHandle
  have lost := references_of_a_cell_are_one_weak_reference rebound isHandleRebound
  have kept := references_of_a_cell_are_one_weak_reference shared isHandleShared
  have released := references_of_a_cell_are_one_weak_reference _ isHandleReleased
  refine ⟨isHandle, filled.2.2.2.1 0 ?_, lost.2.2.2.2.1 ?_, kept.2.2.2.1 0 ?_,
    released.2.2.2.2.1 ?_⟩
  all_goals decide +kernel

end ExactLisp
