import ExactLisp.Proofs.Store
import Mathlib.Data.List.Nodup
import Mathlib.Logic.ExistsUnique

/-!
# Reading over writing in a forest of frames

A frame is made on its own or inside another one, so the frames of a store form a forest, and a
frame lies on the chains of all scopes inside it. Of a write it is said here what every scope reads
afterwards, not only the one that was written through.

One fact carries both kinds of writes (`Store.lookup?_bind`): a binding put into a frame is read
through a chain exactly if the chain reaches the frame before any other frame that binds the name.
-/

namespace ExactLisp

namespace Store

/-! ### Forests -/

/-- The frames of a store were made one after the other, each as a root or inside a frame made
before; `scopes` holds the scope of each. What the frames bind may have been changed in any way. -/
inductive Forest : Store → List Scope → Prop where
  | nothing {store : Store} (noFrames : store.frames.size = 0) : Forest store []
  | root {store : Store} {scopes : List Scope} (forest : Forest store scopes) :
      Forest (store.addRoot Assoc.empty).2 ((store.addRoot Assoc.empty).1 :: scopes)
  | child {store : Store} {scopes : List Scope} {parent : Scope} (forest : Forest store scopes)
      (parentMem : parent ∈ scopes) :
      Forest (store.addChild parent).2 ((store.addChild parent).1 :: scopes)
  | written {store later : Store} {scopes : List Scope} (forest : Forest store scopes)
      (sameFrames : later.frames.size = store.frames.size) : Forest later scopes

theorem forall_inStore_addFrame {store : Store} {scopes : List Scope} {outer : List FrameId}
    (each : ∀ scope ∈ scopes, scope.InStore store)
    (outerIn : ∀ id ∈ outer, id < store.frames.size) :
    ∀ scope ∈ ⟨store.frames.size, outer⟩ :: scopes,
      scope.InStore (store.addFrame Assoc.empty).2 := by
  intro scope scopeMem
  rcases List.mem_cons.mp scopeMem with rfl | older
  · exact inStore_addFrame Assoc.empty outerIn
  · intro id idMem
    rw [size_frames_addFrame]
    exact Nat.lt_succ_of_lt (each scope older id idMem)

namespace Forest

variable {store : Store} {scopes : List Scope}

theorem inStore (forest : store.Forest scopes) : ∀ scope ∈ scopes, scope.InStore store := by
  induction forest with
  | nothing _ => simp
  | root _ ih => exact forall_inStore_addFrame ih (by simp)
  | child _ parentMem ih => exact forall_inStore_addFrame ih (ih _ parentMem)
  | written _ sameFrames ih =>
      intro scope scopeMem id idMem
      rw [sameFrames]
      exact ih scope scopeMem id idMem

/-- The scopes are those of the frames, the latest first. -/
theorem map_own (forest : store.Forest scopes) :
    scopes.map Scope.own = (List.range store.frames.size).reverse := by
  induction forest with
  | nothing noFrames => simp [noFrames]
  | root _ ih => simp [addRoot, addFrame, List.range_succ, ih]
  | child _ _ ih => simp [addChild, addFrame, List.range_succ, ih]
  | written _ sameFrames ih => rw [sameFrames, ih]

theorem existsUnique_scope (forest : store.Forest scopes) {id : FrameId}
    (inFrames : id < store.frames.size) : ∃! scope, scope ∈ scopes ∧ scope.own = id := by
  have ownMem : id ∈ scopes.map Scope.own := by simpa [forest.map_own] using inFrames
  have ownNodup : (scopes.map Scope.own).Nodup := by
    rw [forest.map_own, List.nodup_reverse]
    exact List.nodup_range
  rcases List.mem_map.mp ownMem with ⟨scope, scopeMem, isOwn⟩
  refine ⟨scope, ⟨scopeMem, isOwn⟩, ?_⟩
  rintro other ⟨otherMem, otherOwn⟩
  exact List.inj_on_of_nodup_map ownNodup otherMem scopeMem (otherOwn.trans isOwn.symm)

end Forest

/-! ### The nearest frame -/

/-- A frame lies on a chain, and no nearer frame of the chain binds a name. -/
def Unshadowed (store : Store) (chain : List FrameId) (id : FrameId) (name : String) : Prop :=
  ∃ nearer farther, chain = nearer ++ id :: farther ∧
    ∀ other ∈ nearer, store.binds other name = false

variable {store : Store} {name : String}

theorem not_unshadowed_nil {id : FrameId} : ¬ store.Unshadowed [] id name := by
  rintro ⟨nearer, farther, isChain, _⟩
  simp at isChain

theorem unshadowed_cons {head id : FrameId} {chain : List FrameId} :
    store.Unshadowed (head :: chain) id name ↔
      head = id ∨ store.binds head name = false ∧ store.Unshadowed chain id name := by
  constructor
  · rintro ⟨nearer, farther, isChain, unbound⟩
    cases nearer with
    | nil => exact Or.inl (List.cons.inj isChain).1
    | cons first nearer =>
        rw [List.cons_append, List.cons.injEq] at isChain
        rw [List.forall_mem_cons] at unbound
        exact Or.inr ⟨isChain.1 ▸ unbound.1, nearer, farther, isChain.2, unbound.2⟩
  · rintro (rfl | ⟨unbound, nearer, farther, rfl, others⟩)
    · exact ⟨[], chain, rfl, by simp⟩
    · exact ⟨head :: nearer, farther, rfl, List.forall_mem_cons.mpr ⟨unbound, others⟩⟩

/-- The owner of a name is the nearest frame that binds it. -/
theorem owner?_eq_some_iff {chain : List FrameId} {id : FrameId} :
    store.owner? chain name = some id ↔
      store.binds id name ∧ store.Unshadowed chain id name := by
  rw [owner?, List.find?_eq_some_iff_append]
  simp only [Bool.not_eq_eq_eq_not, Bool.not_true, Unshadowed]

theorem lookup?_eq_owner? (store : Store) (reader : Scope) (name : String) :
    store.lookup? reader name =
      (store.owner? reader.chain name).bind fun owner => (store.frame owner).get? name := by
  rw [lookup?, owner?]
  induction reader.chain with
  | nil => rfl
  | cons head chain ih =>
      rw [List.findSome?_cons, List.find?_cons]
      cases found : (store.frame head).get? name with
      | none => simpa [binds, Assoc.contains, found] using ih
      | some value => simp [binds, Assoc.contains, found]

theorem lookup?_eq_none_iff {reader : Scope} :
    store.lookup? reader name = none ↔ store.owner? reader.chain name = none := by
  rw [lookup?_eq_owner?]
  cases found : store.owner? reader.chain name with
  | none => simp
  | some owner =>
      have bound := (owner?_eq_some_iff.mp found).1
      rw [binds, Assoc.contains] at bound
      simpa [Option.isSome_iff_ne_none] using bound

/-! ### Reading after writing -/

open Classical in
/-- A binding put into a frame is read through every chain that reaches the frame before another one
that binds the name, and through no other chain. -/
theorem lookup?_bind {id : FrameId} (inFrames : id < store.frames.size) (value : Value)
    (reader : Scope) (asked : String) :
    (store.bind id name value).lookup? reader asked =
      if asked = name ∧ store.Unshadowed reader.chain id name then some value
      else store.lookup? reader asked := by
  simp only [lookup?, get?_frame_bind]
  induction reader.chain with
  | nil => simp [not_unshadowed_nil]
  | cons head chain ih =>
      rw [List.findSome?_cons, List.findSome?_cons, ih, unshadowed_cons]
      by_cases isHead : head = id
      · by_cases isName : asked = name
        · simp [isHead, isName, inFrames]
        · simp [isHead, isName]
      · -- a frame in front of the written one decides, if it binds the name
        cases found : (store.frame head).get? asked with
        | none =>
            by_cases isName : asked = name
            · subst isName
              simp [isHead, binds, Assoc.contains, found]
            · simp [isHead, isName]
        | some bound =>
            have notSeen : ¬ (asked = name ∧
                (head = id ∨ store.binds head name = false ∧ store.Unshadowed chain id name)) := by
              rintro ⟨rfl, same | ⟨unbound, _⟩⟩
              · exact isHead same
              · simp [binds, Assoc.contains, found] at unbound
            rw [if_neg notSeen]
            simp [isHead]

/-- Writing to a name that a frame binds already leaves unchanged which frames bind which names. -/
theorem binds_bind {id : FrameId} (bound : store.binds id name) (value : Value)
    (asked : FrameId) (askedName : String) :
    (store.bind id name value).binds asked askedName = store.binds asked askedName := by
  simp only [binds, Assoc.contains, get?_frame_bind] at bound ⊢
  split
  · rename_i same
    rw [same.1, same.2.1, bound]
    rfl
  · rfl

/-- A name was given a value; the scopes that see it read the new value, and everything else reads
as before. -/
structure WriteSeen (before after : Store) (scopes : List Scope) (name : String) (value : Value)
    (sees : Scope → Prop) : Prop where
  seen : ∀ reader ∈ scopes, sees reader → after.lookup? reader name = some value
  unseen : ∀ reader ∈ scopes, ¬ sees reader →
    after.lookup? reader name = before.lookup? reader name
  others : ∀ reader ∈ scopes, ∀ other, other ≠ name →
    after.lookup? reader other = before.lookup? reader other

theorem writeSeen_bind {id : FrameId} (inFrames : id < store.frames.size) (scopes : List Scope)
    (name : String) (value : Value) :
    store.WriteSeen (store.bind id name value) scopes name value
      fun reader => store.Unshadowed reader.chain id name where
  seen := by
    intro reader _ sees
    rw [lookup?_bind inFrames, if_pos ⟨rfl, sees⟩]
  unseen := by
    intro reader _ hidden
    rw [lookup?_bind inFrames, if_neg fun isSeen => hidden isSeen.2]
  others := by
    intro reader _ other different
    rw [lookup?_bind inFrames, if_neg fun isSeen => different isSeen.1]

end Store

/-! ### Definitions and assignments -/

/-- An assignment writes to the owner of the name, or fails and leaves the store as it was. -/
theorem Evaluation.outcome_set (writer : Scope) (name : String) (value : Value) (store : Store) :
    outcome (set writer name value) store =
      match store.owner? writer.chain name with
      | some owner => (.ok value, store.bind owner name value)
      | none => (.error (.error (.undefinedSymbol name)), store) := by
  simp only [outcome, set, Store.set]
  cases store.owner? writer.chain name <;> rfl

open Evaluation in
/-- Frames obey read-over-write, whatever forest they form. A scope reads a name in its owner, the
nearest frame of the scope that binds the name. A definition is seen by the scopes that reach its
frame before another frame that binds the name. An assignment succeeds exactly if the name has an
owner; it is then seen by the scopes in which the name has that owner, and binds no name anew.
Otherwise it fails and changes nothing. All other reads give what they gave before. -/
theorem frames_obey_read_over_write {store : Store} {scopes : List Scope}
    (forest : store.Forest scopes) :
    (∀ id < store.frames.size, ∃! scope, scope ∈ scopes ∧ scope.own = id) ∧
    (∀ reader ∈ scopes, ∀ name,
      (∀ id, store.owner? reader.chain name = some id ↔
        store.binds id name ∧ store.Unshadowed reader.chain id name) ∧
      store.lookup? reader name =
        (store.owner? reader.chain name).bind (fun owner => (store.frame owner).get? name) ∧
      (store.lookup? reader name = none ↔ store.owner? reader.chain name = none)) ∧
    ∀ writer ∈ scopes, ∀ name value,
      (∃ after, outcome (define writer name value) store = (.ok value, after) ∧
        store.WriteSeen after scopes name value fun reader =>
          store.Unshadowed reader.chain writer.own name) ∧
      (∀ owner, store.owner? writer.chain name = some owner →
        ∃ after, outcome (set writer name value) store = (.ok value, after) ∧
          store.WriteSeen after scopes name value (fun reader =>
            store.owner? reader.chain name = some owner) ∧
          ∀ id asked, after.binds id asked = store.binds id asked) ∧
      (store.owner? writer.chain name = none →
        outcome (set writer name value) store =
          (.error (.error (.undefinedSymbol name)), store)) := by
  refine ⟨fun id inFrames => forest.existsUnique_scope inFrames, ?_, ?_⟩
  · intro reader _ name
    exact ⟨fun id => Store.owner?_eq_some_iff, store.lookup?_eq_owner? reader name,
      Store.lookup?_eq_none_iff⟩
  · intro writer writerMem name value
    have inFrames := forest.inStore writer writerMem
    refine ⟨?_, ?_, fun unowned => by rw [outcome_set, unowned]⟩
    · exact ⟨_, rfl, Store.writeSeen_bind (inFrames _ List.mem_cons_self) scopes name value⟩
    · intro owner found
      refine ⟨store.bind owner name value, by rw [outcome_set, found], ?_, ?_⟩
      · have bound := (Store.owner?_eq_some_iff.mp found).1
        have written := Store.writeSeen_bind
          (inFrames owner (List.mem_of_find?_eq_some found)) scopes name value
        -- the written frame binds the name, so it is the owner wherever it is not shadowed
        simpa only [Store.owner?_eq_some_iff, bound, true_and] using written
      · exact Store.binds_bind (Store.owner?_eq_some_iff.mp found).1 value

open Evaluation in
/-- Two scopes side by side in a root, and one inside the first. The root and the first scope bind
a name, so what the innermost scope assigns is seen in the first scope and not beside it. -/
theorem assignment_stops_at_the_nearest_frame :
    let root : Scope := ⟨0, []⟩
    let first : Scope := ⟨1, [0]⟩
    let second : Scope := ⟨2, [0]⟩
    let inner : Scope := ⟨3, [1, 0]⟩
    let frames := (((Store.empty.addRoot Assoc.empty).2.addChild root).2.addChild root).2
    let store := ((frames.addChild first).2.define root "x" (.integer 1)).define first "x"
      (.integer 2)
    store.Forest [inner, second, first, root] ∧
    (∃ after, outcome (set inner "x" (.integer 5)) store = (.ok (.integer 5), after) ∧
      after.lookup? inner "x" = some (.integer 5) ∧
      after.lookup? first "x" = some (.integer 5) ∧
      after.lookup? second "x" = some (.integer 1)) ∧
    outcome (set inner "y" (.integer 5)) store =
      (.error (.error (.undefinedSymbol "y")), store) := by
  intro root first second inner frames store
  have twoInRoot : frames.Forest [second, first, root] :=
    .child (.child (.root (.nothing rfl)) List.mem_cons_self) (by simp [root])
  have oneInFirst : (frames.addChild first).2.Forest [inner, second, first, root] :=
    .child twoInRoot (by simp)
  have forest : store.Forest [inner, second, first, root] :=
    .written oneInFirst (by simp [store, Store.define])
  rcases frames_obey_read_over_write forest with ⟨_, _, writes⟩
  rcases writes inner (by simp) "x" (.integer 5) with ⟨_, assigned, _⟩
  rcases assigned 1 (by decide) with ⟨after, isAfter, seen, _⟩
  refine ⟨forest, ⟨after, isAfter, seen.seen inner (by simp) (by decide),
    seen.seen first (by simp) (by decide), ?_⟩, ?_⟩
  · rw [seen.unseen second (by simp) (by decide)]
    rfl
  · exact (writes inner (by simp) "y" (.integer 5)).2.2 (by decide)

end ExactLisp
