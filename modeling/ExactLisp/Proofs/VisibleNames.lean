import ExactLisp.Proofs.Scopes
import Mathlib.Data.List.Destutter
import Mathlib.Data.List.Sort
import Mathlib.Data.String.Basic

/-!
# The names of a scope

The names of a scope are those that can be looked up in it, each once and in increasing order. An
increasing list is determined by its members, so this says all of it: the same list comes out if the
frames are gone through from the outermost inwards, each adding its names in any order, with sorting
and the removal of neighbouring repetitions after each frame (`Store.namesByFrames_eq`). What a
write does to the names is read off what it does to the bindings.
-/

namespace ExactLisp

/-! ### Increasing lists -/

section Increasing

variable {α : Type} [LinearOrder α]

theorem mem_destutter'_ne_iff {items : List α} {first asked : α} :
    asked ∈ items.destutter' (· ≠ ·) first ↔ asked = first ∨ asked ∈ items := by
  induction items generalizing first with
  | nil => simp
  | cons item items ih =>
      by_cases same : first = item
      · rw [List.destutter'_cons_neg items (not_not.mpr same), ih, List.mem_cons, same,
          or_self_left]
      · rw [List.destutter'_cons_pos items same, List.mem_cons, ih, List.mem_cons]

/-- Without neighbouring repetitions, a list has the members that it had. -/
theorem mem_destutter_ne_iff {items : List α} {asked : α} :
    asked ∈ items.destutter (· ≠ ·) ↔ asked ∈ items := by
  cases items with
  | nil => simp
  | cons first items => rw [List.destutter_cons', mem_destutter'_ne_iff, List.mem_cons]

/-- In an ordered list, equal items are neighbours. -/
theorem pairwise_lt_destutter {items : List α} (ordered : items.Pairwise (· ≤ ·)) :
    (items.destutter (· ≠ ·)).Pairwise (· < ·) := by
  have stillOrdered := ordered.sublist (List.destutter_sublist (· ≠ ·) items)
  have apart := List.isChain_destutter (· ≠ ·) items
  apply List.IsChain.pairwise
  rw [List.isChain_iff_getElem] at apart ⊢
  intro index inside
  apply lt_of_le_of_ne
  · exact List.pairwise_iff_getElem.mp stillOrdered _ _ _ _ (Nat.lt_succ_self index)
  · exact apart index inside

/-- An increasing list that gets one more member gets it at one place. -/
theorem exists_insertion {before after : List α} {added : α} (increasing : before.Pairwise (· < ·))
    (stillIncreasing : after.Pairwise (· < ·)) (isNew : added ∉ before)
    (members : ∀ item, item ∈ after ↔ item = added ∨ item ∈ before) :
    ∃ smaller greater, before = smaller ++ greater ∧ after = smaller ++ added :: greater := by
  rcases List.append_of_mem ((members added).mpr (Or.inl rfl)) with ⟨smaller, greater, rfl⟩
  refine ⟨smaller, greater, ?_, rfl⟩
  have isFewer : (smaller ++ greater).Sublist (smaller ++ added :: greater) :=
    List.Sublist.append_left (List.sublist_cons_self added greater) smaller
  have occursOnce : added ∉ smaller ++ greater :=
    (List.nodup_middle.mp stillIncreasing.nodup).notMem
  apply increasing.eq_of_mem_iff (stillIncreasing.sublist isFewer)
  intro item
  have sameMember := members item
  rw [List.mem_append, List.mem_cons] at sameMember
  rw [List.mem_append] at occursOnce ⊢
  by_cases isAdded : item = added
  · subst isAdded
    exact iff_of_false isNew occursOnce
  · simpa [isAdded] using sameMember.symm

end Increasing

namespace Store

variable {store : Store} {names : List String}

/-! ### The names in order -/

theorem pairwise_insertName (name : String) (increasing : names.Pairwise (· < ·)) :
    (insertName name names).Pairwise (· < ·) := by
  induction names with
  | nil => exact List.pairwise_singleton _ _
  | cons other names ih =>
      rw [List.pairwise_cons] at increasing
      rw [insertName]
      split
      · rename_i isSmaller
        apply List.pairwise_cons.mpr
        refine ⟨?_, List.pairwise_cons.mpr increasing⟩
        intro later laterMem
        rcases List.mem_cons.mp laterMem with rfl | laterMem
        · exact isSmaller
        · exact lt_trans isSmaller (increasing.1 later laterMem)
      · split
        · exact List.pairwise_cons.mpr increasing
        · rename_i notSmaller different
          apply List.pairwise_cons.mpr
          refine ⟨?_, ih increasing.2⟩
          intro later laterMem
          rcases mem_insertName.mp laterMem with rfl | laterMem
          · exact lt_of_le_of_ne (le_of_not_gt notSmaller) (Ne.symm different)
          · exact increasing.1 later laterMem

theorem pairwise_names (store : Store) (scope : Scope) :
    (store.names scope).Pairwise (· < ·) := by
  rw [Store.names]
  generalize scope.chain.flatMap (fun id => (store.frame id).keys) = keys
  induction keys with
  | nil => exact .nil
  | cons name keys ih => exact pairwise_insertName name ih

/-- The names of a chain, frame by frame: the names of a frame, in the order in which the frame
lists them, with those of the frames outside of it, sorted and without neighbouring repetitions. -/
def namesByFrames (listed : FrameId → List String) : List FrameId → List String
  | [] => []
  | id :: chain =>
    ((listed id ++ namesByFrames listed chain).mergeSort (· ≤ ·)).destutter (· ≠ ·)

theorem pairwise_namesByFrames (listed : FrameId → List String) (chain : List FrameId) :
    (namesByFrames listed chain).Pairwise (· < ·) := by
  cases chain with
  | nil => exact .nil
  | cons id chain => exact pairwise_lt_destutter (List.pairwise_mergeSort' (· ≤ ·) _)

theorem mem_namesByFrames_iff {listed : FrameId → List String} {chain : List FrameId}
    {name : String} : name ∈ namesByFrames listed chain ↔ ∃ id ∈ chain, name ∈ listed id := by
  induction chain with
  | nil => simp [namesByFrames]
  | cons id chain ih =>
      rw [namesByFrames, mem_destutter_ne_iff, List.mem_mergeSort, List.mem_append, ih,
        List.exists_mem_cons_iff]

theorem mem_names_iff_binds {scope : Scope} {name : String} :
    name ∈ store.names scope ↔ ∃ id ∈ scope.chain, store.binds id name := by
  rw [mem_names_iff, lookup?, List.findSome?_isSome_iff]
  rfl

/-- The order in which frames list their names makes no difference. -/
theorem namesByFrames_eq {listed : FrameId → List String}
    (lists : ∀ id name, name ∈ listed id ↔ store.binds id name) (scope : Scope) :
    namesByFrames listed scope.chain = store.names scope := by
  apply (pairwise_namesByFrames listed scope.chain).eq_of_mem_iff (pairwise_names store scope)
  intro name
  simp only [mem_namesByFrames_iff, mem_names_iff_binds, lists]

/-! ### Writes -/

theorem names_congr {before after : Store} {scope : Scope}
    (same : ∀ id name, after.binds id name = before.binds id name) :
    after.names scope = before.names scope := by
  apply (pairwise_names after scope).eq_of_mem_iff (pairwise_names before scope)
  intro name
  simp only [mem_names_iff_binds, same]

theorem names_set (writer : Scope) (name : String) (value : Value) (reader : Scope) :
    ((Evaluation.set writer name value).outcome store).2.names reader = store.names reader := by
  rw [Evaluation.outcome_set]
  cases found : store.owner? writer.chain name with
  | none => rfl
  | some owner =>
      apply names_congr
      exact binds_bind (owner?_eq_some_iff.mp found).1 value

theorem mem_names_define {writer reader : Scope} {name asked : String} {value : Value} :
    asked ∈ (store.define writer name value).names reader ↔
      asked ∈ store.names reader ∨
        asked = name ∧ writer.own ∈ reader.chain ∧ writer.own < store.frames.size := by
  have binds_iff : ∀ id, (store.bind writer.own name value).binds id asked ↔
      store.binds id asked ∨ id = writer.own ∧ asked = name ∧
        writer.own < store.frames.size := by
    intro id
    simp only [binds, Assoc.contains, get?_frame_bind]
    split
    · rename_i written
      simp [written]
    · rename_i notWritten
      simp [notWritten]
  simp only [mem_names_iff_binds, define, binds_iff]
  constructor
  · rintro ⟨id, idMem, bound | ⟨rfl, written⟩⟩
    · exact Or.inl ⟨id, idMem, bound⟩
    · exact Or.inr ⟨written.1, idMem, written.2⟩
  · rintro (⟨id, idMem, bound⟩ | ⟨isName, onChain, inFrames⟩)
    · exact ⟨id, idMem, Or.inl bound⟩
    · exact ⟨_, onChain, Or.inr ⟨rfl, isName, inFrames⟩⟩

theorem names_define_cases (writer : Scope) (name : String) (value : Value) (reader : Scope) :
    (store.define writer name value).names reader = store.names reader ∨
      name ∉ store.names reader ∧ ∃ smaller greater, store.names reader = smaller ++ greater ∧
        (store.define writer name value).names reader = smaller ++ name :: greater := by
  have increasing := pairwise_names store reader
  have stillIncreasing := pairwise_names (store.define writer name value) reader
  by_cases isNew : name ∉ store.names reader ∧ writer.own ∈ reader.chain ∧
      writer.own < store.frames.size
  · refine Or.inr ⟨isNew.1, exists_insertion increasing stillIncreasing isNew.1 ?_⟩
    intro asked
    rw [mem_names_define, or_comm]
    simp [isNew.2]
  · refine Or.inl (stillIncreasing.eq_of_mem_iff increasing ?_)
    intro asked
    rw [mem_names_define, or_iff_left_iff_imp]
    rintro ⟨rfl, seen⟩
    by_contra notBefore
    exact isNew ⟨notBefore, seen⟩

end Store

open Evaluation in
/-- The names of a scope are exactly the visible ones. They are in increasing order, so none occurs
twice, and they are those that can be looked up in the scope, whatever the frames of the scope bind.
Going through the frames and sorting after each gives the same list, in whatever order the frames
list their names. An assignment from any scope leaves the names as they are, whether it succeeds or
not. A definition leaves them as they are or inserts its own name, which is among them afterwards if
the definition was made in a frame of the scope. -/
theorem names_are_the_visible_ones (store : Store) (reader : Scope) :
    (store.names reader).Pairwise (· < ·) ∧
    (∀ name, name ∈ store.names reader ↔ (store.lookup? reader name).isSome) ∧
    (∀ listed : FrameId → List String,
      (∀ id name, name ∈ listed id ↔ store.binds id name) →
      Store.namesByFrames listed reader.chain = store.names reader) ∧
    ∀ writer name value,
      ((set writer name value).outcome store).2.names reader = store.names reader ∧
      let after := ((define writer name value).outcome store).2.names reader
      (after = store.names reader ∨ name ∉ store.names reader ∧ ∃ smaller greater,
        store.names reader = smaller ++ greater ∧ after = smaller ++ name :: greater) ∧
      (writer.own ∈ reader.chain → writer.own < store.frames.size → name ∈ after) := by
  refine ⟨Store.pairwise_names store reader, Store.mem_names_iff store reader, ?_, ?_⟩
  · intro listed lists
    exact Store.namesByFrames_eq lists reader
  · intro writer name value
    refine ⟨Store.names_set writer name value reader,
      Store.names_define_cases writer name value reader, ?_⟩
    intro onChain inFrames
    exact Store.mem_names_define.mpr (Or.inr ⟨rfl, onChain, inFrames⟩)

theorem shadowed_name_is_listed_once :
    let root : Scope := ⟨0, []⟩
    let inner : Scope := ⟨1, [0]⟩
    let frames := ((Store.empty.addRoot Assoc.empty).2.addChild root).2
    let store := (((frames.define root "b" (.integer 1)).define root "a" .nil).define inner "d"
      .nil).define inner "b" .nil
    let listed : FrameId → List String := fun id => (store.frame id).keys.reverse
    listed 0 = ["a", "b"] ∧ listed 1 = ["b", "d"] ∧
    Store.namesByFrames listed inner.chain = ["a", "b", "d"] ∧
    store.names inner = ["a", "b", "d"] ∧
    "c" ∈ ((Evaluation.define root "c" .nil).outcome store).2.names inner := by
  intro root inner frames store listed
  have isNames : store.names inner = ["a", "b", "d"] := by decide
  have lists : ∀ id name, name ∈ listed id ↔ store.binds id name := by
    intro id name
    rw [List.mem_reverse]
    exact Assoc.mem_keys_iff _ _
  rcases names_are_the_visible_ones store inner with ⟨_, _, byFrames, writes⟩
  refine ⟨rfl, rfl, (byFrames listed lists).trans isNames, isNames, ?_⟩
  exact (writes root "c" .nil).2.2 (by decide) (by decide)

end ExactLisp
