import ExactLisp.Proofs.Builtins
import ExactLisp.Proofs.Compilable
import Mathlib.Data.List.Forall2

/-!
# Mapping and applying

The two builtins that call a function of their arguments. `map` calls it once for each place of the
longest list, on what stands there in all lists, with `nil` where a list is too short; the first
place where the function fails ends the run. `apply` calls it once, on its other arguments with the
lists among them opened by one level.

Both are stated against a description of the arguments that says nothing of how they are taken
apart: what a value is as a list (`Value.ReadsAsList`), which length is the greatest (`IsLongest`),
what stands at a place (`rowAt`), and what opening the lists leaves (`Spliced`).
-/

namespace ExactLisp

/-! ### Computations over a list -/

section List

variable {ε α β : Type}

/-- What stands before a place in the list of all places below a number are the earlier ones. -/
theorem exists_range_eq_append_iff {count index : Nat} {before : List Nat} :
    (∃ after, List.range count = before ++ index :: after) ↔
      index < count ∧ before = List.range index := by
  constructor
  · rintro ⟨after, cut⟩
    have isIndex : (List.range count)[before.length]? = some index := by
      rw [cut, List.getElem?_append_right (Nat.le_refl _), Nat.sub_self, List.getElem?_cons_zero]
    rcases List.getElem?_eq_some_iff.mp isIndex with ⟨inside, sameIndex⟩
    rw [List.length_range] at inside
    rw [List.getElem_range] at sameIndex
    subst sameIndex
    have taken := congrArg (List.take before.length) cut
    rw [List.take_left, List.take_range, Nat.min_eq_left (Nat.le_of_lt inside)] at taken
    exact ⟨inside, taken.symm⟩
  · rintro ⟨inside, rfl⟩
    rcases Nat.exists_eq_add_of_lt inside with ⟨others, rfl⟩
    rw [Nat.add_assoc, List.range_add, List.range_succ_eq_map, List.map_cons]
    exact ⟨_, rfl⟩

/-- A computation over all places below a number succeeds if it does at each of them. -/
theorem mapM_range_eq_ok_iff {visit : Nat → Except ε β} {count : Nat} {values : List β} :
    (List.range count).mapM visit = .ok values ↔ values.length = count ∧
      ∀ index < count, ∃ value, values[index]? = some value ∧ visit index = .ok value := by
  simp only [mapM_eq_ok_iff, List.forall₂_iff_get, List.length_range, List.get_eq_getElem,
    List.getElem_range, eq_comm (a := count)]
  apply and_congr_right
  intro sameLength
  constructor
  · intro each index inside
    have inValues : index < values.length := sameLength ▸ inside
    exact ⟨_, List.getElem?_eq_getElem inValues, each index inside inValues⟩
  · intro each index inside inValues
    rcases each index inside with ⟨value, isValue, succeeded⟩
    rw [List.getElem?_eq_getElem inValues] at isValue
    exact Option.some.inj isValue ▸ succeeded

/-- A computation over all places below a number fails at the first place where it does. -/
theorem mapM_range_eq_error_iff {visit : Nat → Except ε β} {count : Nat} {failure : ε} :
    (List.range count).mapM visit = .error failure ↔ ∃ index < count,
      visit index = .error failure ∧ ∀ earlier < index, ∃ value, visit earlier = .ok value := by
  rw [mapM_eq_error_iff]
  constructor
  · rintro ⟨before, index, after, cut, failed, succeeded⟩
    rcases exists_range_eq_append_iff.mp ⟨after, cut⟩ with ⟨inside, rfl⟩
    simp only [List.mem_range] at succeeded
    exact ⟨index, inside, failed, succeeded⟩
  · rintro ⟨index, inside, failed, succeeded⟩
    rcases exists_range_eq_append_iff.mpr ⟨inside, rfl⟩ with ⟨after, cut⟩
    simp only [← List.mem_range] at succeeded
    exact ⟨_, index, after, cut, failed, succeeded⟩

end List

/-! ### Lists of arguments -/

/-- A value read as a list: `nil` is the empty one. -/
inductive Value.ReadsAsList : Value → List Value → Prop where
  | list (items : List Value) : ReadsAsList (.list items) items
  | nil : ReadsAsList .nil []

/-- The greatest of the lengths of some lists, of which there is one at least. -/
structure IsLongest (lists : List (List Value)) (longest : Nat) : Prop where
  reached : ∃ items ∈ lists, items.length = longest
  bounds : ∀ items ∈ lists, items.length ≤ longest

/-- What stands at a place in each of some lists, `nil` where a list has no such place. -/
def rowAt (lists : List (List Value)) (index : Nat) : List Value :=
  lists.map fun items => if inside : index < items.length then items[index] else .nil

/-- The values that are left when the lists among some values are opened, each where it stands. The
lists inside them stay closed, and `nil` is kept. -/
inductive Spliced : List Value → List Value → Prop where
  | nil : Spliced [] []
  | opened {values left : List Value} (items : List Value) (rest : Spliced values left) :
      Spliced (.list items :: values) (items ++ left)
  | kept {value : Value} {values left : List Value} (noList : ∀ items, value ≠ .list items)
      (rest : Spliced values left) : Spliced (value :: values) (value :: left)

theorem Value.asList_eq_ok_iff {operation : String} {value : Value} {items : List Value} :
    value.asList operation = .ok items ↔ value.ReadsAsList items := by
  constructor
  · intro isList
    cases value with
    | list others =>
        cases isList
        exact .list _
    | nil =>
        cases isList
        exact .nil
    | _ => cases isList
  · rintro (_ | _) <;> rfl

theorem Value.asList_of_not_reads {operation : String} {value : Value}
    (noList : ∀ items, ¬value.ReadsAsList items) :
    value.asList operation = .error (.typeMismatch operation .list value.kind) := by
  cases value with
  | list items => exact absurd (.list items) (noList items)
  | nil => exact absurd .nil (noList [])
  | _ => rfl

theorem Value.asFunction_of_ne {operation : String} {value : Value}
    (noFunction : ∀ callee, value ≠ .function callee) :
    value.asFunction operation = .error (.typeMismatch operation .function value.kind) := by
  cases value with
  | function callee => exact absurd rfl (noFunction callee)
  | _ => rfl

namespace Primitive

theorem rows_eq {lists : List (List Value)} {longest : Nat} (isLongest : IsLongest lists longest) :
    rows lists = (List.range longest).map (rowAt lists) := by
  have isMax : (lists.map List.length).max? = some longest := by
    rw [List.max?_eq_some_iff, List.mem_map, List.forall_mem_map]
    exact ⟨isLongest.reached, isLongest.bounds⟩
  have sameRow : ∀ index, (lists.map fun items => items.getD index .nil) = rowAt lists index := by
    intro index
    apply List.map_congr_left
    intro items _
    rw [List.getD_eq_getElem?_getD]
    split
    · rename_i inside
      rw [List.getElem?_eq_getElem inside, Option.getD_some]
    · rename_i outside
      rw [List.getElem?_eq_none (Nat.le_of_not_lt outside), Option.getD_none]
  simp only [rows, List.foldl_max, isMax, Option.getD_some, Nat.zero_max, sameRow]

theorem splice_eq {values left : List Value} (spliced : Spliced values left) :
    splice values = left := by
  induction spliced with
  | nil => rfl
  | opened items _ ih => rw [← ih, splice, List.flatMap_cons, ← splice]
  | @kept value values left noList _ ih =>
      rw [← ih, splice, List.flatMap_cons, ← splice]
      cases value with
      | list items => exact absurd rfl (noList items)
      | _ => rfl

theorem exists_spliced (values : List Value) : ∃ left, Spliced values left := by
  induction values with
  | nil => exact ⟨[], .nil⟩
  | cons value values ih =>
      rcases ih with ⟨left, rest⟩
      cases value with
      | list items => exact ⟨_, .opened items rest⟩
      | _ => exact ⟨_, .kept (by simp) rest⟩

end Primitive

/-! ### Calls -/

/-- How a run over rows ends, given how the visit of each row does: with all results in order, or
with the failure of the first row that fails. -/
structure MapsRows (run : Except Failure Value) (visit : Nat → Except Failure Value)
    (longest : Nat) : Prop where
  succeeds_iff : (∃ value, run = .ok value) ↔
    ∀ index < longest, ∃ result, visit index = .ok result
  returns : ∀ value, run = .ok value → ∃ results, value = .list results ∧
    results.length = longest ∧
    ∀ index < longest, ∃ result, results[index]? = some result ∧ visit index = .ok result
  fails_iff : ∀ failure, run = .error failure ↔ ∃ index < longest,
    visit index = .error failure ∧ ∀ earlier < index, ∃ result, visit earlier = .ok result

theorem mapsRows_of_mapM {run : Except Failure Value} {visit : Nat → Except Failure Value}
    {longest : Nat} (isRun : run = Value.list <$> (List.range longest).mapM visit) :
    MapsRows run visit longest := by
  have returns : ∀ value, run = .ok value → ∃ results, value = .list results ∧
      results.length = longest ∧
      ∀ index < longest, ∃ result, results[index]? = some result ∧ visit index = .ok result := by
    intro value succeeded
    rcases map_eq_ok_iff.mp (isRun.symm.trans succeeded) with ⟨results, areResults, rfl⟩
    exact ⟨results, rfl, mapM_range_eq_ok_iff.mp areResults⟩
  have fails_iff : ∀ failure, run = .error failure ↔ ∃ index < longest,
      visit index = .error failure ∧ ∀ earlier < index, ∃ result, visit earlier = .ok result := by
    intro failure
    rw [← mapM_range_eq_error_iff, isRun]
    cases (List.range longest).mapM visit <;> simp
  refine ⟨⟨?_, ?_⟩, returns, fails_iff⟩
  · rintro ⟨value, succeeded⟩ index inside
    rcases returns value succeeded with ⟨results, _, _, each⟩
    rcases each index inside with ⟨result, _, isResult⟩
    exact ⟨result, isResult⟩
  · intro each
    cases ended : run with
    | ok value => exact ⟨value, rfl⟩
    | error failure =>
        rcases (fails_iff failure).mp ended with ⟨index, inside, failed, _⟩
        rcases each index inside with ⟨result, succeeded⟩
        cases failed.symm.trans succeeded

namespace Store

variable {store : Store} {invoke : Function → List Value → Except Failure Value} {home : FrameId}

theorem runBuiltin_map {callee : Value} {args : List Value} (some : args ≠ []) :
    store.runBuiltin invoke (Primitive.map.builtin home) (callee :: args) = (do
      let callee ← orFail (callee.asFunction "map")
      let lists ← orFail (args.mapM (Value.asList "map"))
      let results ← (Primitive.rows lists).mapM (invoke callee)
      return .list results) := by
  rw [runBuiltin, if_pos]
  · rfl
  · have count : 0 < args.length := List.length_pos_iff.mpr some
    simp only [Primitive.builtin, Primitive.arity, Arity.accepts, List.length_cons,
      decide_eq_true_eq]
    omega

theorem runBuiltin_apply {callee : Value} {args : List Value} :
    store.runBuiltin invoke (Primitive.apply.builtin home) (callee :: args) = (do
      let callee ← orFail (callee.asFunction "apply")
      invoke callee (Primitive.splice args)) := by
  rw [runBuiltin, if_pos]
  · rfl
  · simp [Primitive.builtin, Primitive.arity, Arity.accepts]

theorem mapsRows_runBuiltin {callee : Function} {args : List Value} {lists : List (List Value)}
    {longest : Nat} (areLists : List.Forall₂ Value.ReadsAsList args lists)
    (isLongest : IsLongest lists longest) :
    MapsRows (store.runBuiltin invoke (Primitive.map.builtin home) (.function callee :: args))
      (fun index => invoke callee (rowAt lists index)) longest := by
  apply mapsRows_of_mapM
  have some : args ≠ [] := by
    rintro rfl
    cases areLists
    rcases isLongest.reached with ⟨items, absent, _⟩
    exact absurd absent List.not_mem_nil
  have read : args.mapM (Value.asList "map") = .ok lists :=
    mapM_eq_ok_iff.mpr (areLists.imp fun _ _ => Value.asList_eq_ok_iff.mpr)
  have rows : (Primitive.rows lists).mapM (invoke callee) =
      (List.range longest).mapM fun index => invoke callee (rowAt lists index) := by
    rw [Primitive.rows_eq isLongest, List.mapM_map]
    rfl
  rw [runBuiltin_map some, read, ← rows]
  have collected := bind_pure_comp Value.list ((Primitive.rows lists).mapM (invoke callee))
  exact collected

end Store

/-- `map` is a padded zip and `apply` opens the lists among its arguments by one level. Let a
function be mapped over lists, with `nil` for the empty one. The run succeeds exactly if the
function does on every row, and gives its results in order; otherwise it ends with the failure of
the first row that fails, and whatever the function does on later rows makes no difference. A first
argument that is no function is refused before all else, and then the first argument that is no
list. To apply a function is to call it on what opening the lists leaves. -/
theorem map_zips_lists_and_apply_opens_them (store : Store) (depth : Nat) (home : FrameId) :
    let map := fun args => store.call (depth + 1) (.builtin (Primitive.map.builtin home)) args
    let apply := fun args => store.call (depth + 1) (.builtin (Primitive.apply.builtin home)) args
    (∀ (callee : Function) (args : List Value) (lists : List (List Value)) (longest : Nat),
      List.Forall₂ Value.ReadsAsList args lists → IsLongest lists longest →
      let visit := fun index => store.call depth callee (rowAt lists index)
      MapsRows (map (.function callee :: args)) visit longest ∧
      ∀ index failure, index < longest → visit index = .error failure →
        (∀ earlier < index, ∃ result, visit earlier = .ok result) →
        ∀ invoke : Function → List Value → Except Failure Value,
          (∀ earlier ≤ index, invoke callee (rowAt lists earlier) = visit earlier) →
          store.runBuiltin invoke (Primitive.map.builtin home) (.function callee :: args) =
            .error failure) ∧
    (∀ (value : Value) (args : List Value), args ≠ [] → (∀ callee, value ≠ .function callee) →
      map (value :: args) = .error (.error (.typeMismatch "map" .function value.kind))) ∧
    (∀ (callee : Function) (before : List Value) (other : Value) (after : List Value),
      (∀ value ∈ before, ∃ items, value.ReadsAsList items) →
      (∀ items, ¬other.ReadsAsList items) →
      map (.function callee :: (before ++ other :: after)) =
        .error (.error (.typeMismatch "map" .list other.kind))) ∧
    (∀ (callee : Function) (args : List Value), (∃ left, Spliced args left) ∧
      ∀ left, Spliced args left → apply (.function callee :: args) = store.call depth callee left) ∧
    ∀ (value : Value) (args : List Value), (∀ callee, value ≠ .function callee) →
      apply (value :: args) = .error (.error (.typeMismatch "apply" .function value.kind)) := by
  intro map apply
  have callsMap : ∀ args, map args =
      store.runBuiltin (store.call depth) (Primitive.map.builtin home) args := fun _ => rfl
  have callsApply : ∀ args, apply args =
      store.runBuiltin (store.call depth) (Primitive.apply.builtin home) args := fun _ => rfl
  refine ⟨?_, ?_, ?_, ?_, ?_⟩
  · intro callee args lists longest areLists isLongest visit
    refine ⟨Store.mapsRows_runBuiltin areLists isLongest, ?_⟩
    intro index failure inside failed succeeded invoke same
    apply ((Store.mapsRows_runBuiltin areLists isLongest).fails_iff failure).mpr
    refine ⟨index, inside, (same index (Nat.le_refl _)).trans failed, ?_⟩
    intro earlier isEarlier
    rw [same earlier (Nat.le_of_lt isEarlier)]
    exact succeeded earlier isEarlier
  · intro value args some noFunction
    rw [callsMap, Store.runBuiltin_map some, Value.asFunction_of_ne noFunction]
    rfl
  · intro callee before other after areLists noList
    have stops : (before ++ other :: after).mapM (Value.asList "map") =
        .error (.typeMismatch "map" .list other.kind) := by
      refine mapM_eq_error_iff.mpr ⟨before, other, after, rfl, ?_, ?_⟩
      · exact Value.asList_of_not_reads noList
      · intro value valueMem
        rcases areLists value valueMem with ⟨items, reads⟩
        exact ⟨items, Value.asList_eq_ok_iff.mpr reads⟩
    rw [callsMap, Store.runBuiltin_map (by simp), stops]
    rfl
  · intro callee args
    refine ⟨Primitive.exists_spliced args, ?_⟩
    intro left spliced
    rw [callsApply, Store.runBuiltin_apply, Primitive.splice_eq spliced]
    rfl
  · intro value args noFunction
    rw [callsApply, Store.runBuiltin_apply, Value.asFunction_of_ne noFunction]
    rfl

theorem padding_ends_a_sum_of_two_lists :
    let call := fun (operation : Primitive) (args : List Value) =>
      Store.empty.call 2 (.builtin (operation.builtin 0)) args
    let sum := Function.builtin (Primitive.add.builtin 0)
    let args : List Value := [.list [.integer 1, .integer 2], .list [.integer 10]]
    let lists : List (List Value) := [[.integer 1, .integer 2], [.integer 10]]
    List.Forall₂ Value.ReadsAsList args lists ∧ IsLongest lists 2 ∧
    call .map (.function sum :: args) = .error (.error (.typeMismatch "+" .number .nil)) ∧
    call .map [.nil, .integer 1] = .error (.error (.typeMismatch "map" .function .nil)) ∧
    call .map [.function sum, .nil, .integer 1] =
      .error (.error (.typeMismatch "map" .list .integer)) ∧
    Spliced [.list [.integer 1, .list []], .nil] [.integer 1, .list [], .nil] ∧
    call .apply [.function (.builtin (Primitive.list.builtin 0)), .list [.integer 1, .list []],
      .nil] = .ok (.list [.integer 1, .list [], .nil]) := by
  intro call sum args lists
  rcases map_zips_lists_and_apply_opens_them Store.empty 1 0 with
    ⟨maps, noFunction, noList, applies, _⟩
  have areLists : List.Forall₂ Value.ReadsAsList args lists :=
    .cons (.list _) (.cons (.list _) .nil)
  have isLongest : IsLongest lists 2 := ⟨⟨_, List.mem_cons_self, rfl⟩, by simp [lists]⟩
  have succeeded : Store.empty.call 1 sum (rowAt lists 0) = .ok (.integer 11) := rfl
  have failed : Store.empty.call 1 sum (rowAt lists 1) =
      .error (.error (.typeMismatch "+" .number .nil)) := rfl
  have spliced : Spliced [.list [.integer 1, .list []], .nil] [.integer 1, .list [], .nil] :=
    .opened [.integer 1, .list []] (.kept (by simp) .nil)
  refine ⟨areLists, isLongest, ?_, ?_, ?_, spliced, (applies _ _).2 _ spliced⟩
  · apply ((maps sum args lists 2 areLists isLongest).1.fails_iff _).mpr
    refine ⟨1, by decide, failed, ?_⟩
    intro earlier isEarlier
    rw [Nat.lt_one_iff.mp isEarlier]
    exact ⟨_, succeeded⟩
  · exact noFunction .nil _ (by simp) (by simp)
  · apply noList sum [.nil] (.integer 1) []
    · intro value valueMem
      rw [List.mem_singleton.mp valueMem]
      exact ⟨[], .nil⟩
    · rintro items ⟨⟩

end ExactLisp
