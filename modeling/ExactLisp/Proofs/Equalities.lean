import ExactLisp.Proofs.ForwardReferences
import ExactLisp.Proofs.NumericTower

/-!
# Three lawful equalities

Each of the three equalities compares forms of the values. Functions are one exactly if they have
the same representative (`Store.sameFunction_iff`). Structural equality is equality of the values
with every function replaced by its representative (`Value.same_iff`), and equality by content is
equality after every integer in them became a float as well (`Value.equal_iff`). Shallow equality is
structural equality of values that are no lists with items (`Value.eqv_iff`). That the relations are
lawful and that each is contained in the next is read off these forms.
-/

namespace ExactLisp

/-! ### Representatives of functions -/

/-- One function for all that are one with it. A forward reference that refers to nothing has only
its cell, and of a builtin neither name nor arity matters. -/
def Store.representative (store : Store) : Function → Function
  | .builtin builtin => .builtin ⟨builtin.home, "", .fixed 0, builtin.primitive⟩
  | .closure id => .closure id
  | .placeholder placeholder =>
    match store.referent? placeholder with
    | some id => .closure id
    | none => .placeholder ⟨"", placeholder.cell⟩

namespace Store

variable {store : Store}

theorem representative_eq_closure_iff {f : Function} {id : ClosureId} :
    store.representative f = .closure id ↔ store.closureId? f = some id := by
  cases f with
  | builtin builtin => simp [representative, closureId?]
  | closure other => simp [representative, closureId?]
  | placeholder placeholder =>
      cases refers : store.referent? placeholder <;> simp [representative, closureId?, refers]

theorem sameFunction_iff {f g : Function} :
    store.sameFunction f g ↔ store.representative f = store.representative g := by
  cases f with
  | builtin builtin =>
      cases g with
      | builtin other => simp [sameFunction, representative]
      | closure id => simp [sameFunction, sameClosure, closureId?, representative]
      | placeholder twin =>
          cases refers : store.referent? twin <;>
            simp [sameFunction, sameClosure, closureId?, representative, refers]
  | closure id =>
      have same : store.sameFunction (.closure id) g ↔ store.closureId? g = some id := by
        cases g <;> simp [sameFunction, sameClosure_eq_true_iff, closureId?]
      rw [same, ← representative_eq_closure_iff]
      exact eq_comm
  | placeholder placeholder =>
      cases refers : store.referent? placeholder with
      | some id =>
          have isClosure : store.representative (.placeholder placeholder) = .closure id :=
            representative_eq_closure_iff.mpr refers
          rw [(standsFor_of_referent? refers).same, ← representative_eq_closure_iff, isClosure]
          exact eq_comm
      | none =>
          rw [(standsForNothing_of_referent? refers).same]
          cases g with
          | builtin builtin => simp [representative, refers]
          | closure id => simp [representative, refers]
          | placeholder twin =>
              -- references of one cell refer to nothing together
              by_cases sameCell : twin.cell = placeholder.cell
              · have alsoNothing : store.referent? twin = none := by
                  rw [← refers, referent?, referent?, sameCell]
                simp [representative, refers, alsoNothing, sameCell]
              · cases otherRefers : store.referent? twin <;>
                  simp [representative, refers, otherRefers, sameCell, Ne.symm sameCell]

end Store

/-! ### Forms of values -/

namespace Value

mutual

/-- Changes the atoms of a value, at any depth of nested lists. -/
def mapAtoms (change : Value → Value) : Value → Value
  | list items => list (mapAtomsOf change items)
  | atom => change atom

def mapAtomsOf (change : Value → Value) : List Value → List Value
  | [] => []
  | value :: values => value.mapAtoms change :: mapAtomsOf change values

end

/-- A form of values that is taken of lists item by item. -/
def Itemwise (form : Value → Value) : Prop :=
  ∀ items, form (list items) = list (items.map form)

theorem itemwise_mapAtoms (change : Value → Value) : Itemwise (mapAtoms change) := by
  intro items
  have each : ∀ values : List Value, mapAtomsOf change values = values.map (mapAtoms change) := by
    intro values
    induction values with
    | nil => rw [mapAtomsOf, List.map_nil]
    | cons value values ih => rw [mapAtomsOf, ih, List.map_cons]
  rw [mapAtoms, each]

theorem Itemwise.comp {outer inner : Value → Value} (outerItemwise : Itemwise outer)
    (innerItemwise : Itemwise inner) : Itemwise fun value => outer (inner value) := by
  intro items
  change outer (inner (list items)) = _
  rw [innerItemwise, outerItemwise, List.map_map]
  rfl

/-- A function becomes its representative. -/
def canonicalAtom (store : Store) : Value → Value
  | function callee => function (store.representative callee)
  | other => other

/-- An integer becomes the float of the same value. -/
def promotedAtom : Value → Value
  | integer value => float value
  | other => other

/-- A float becomes its numerator, which is the integer that it was promoted from. -/
def demotedAtom : Value → Value
  | float value => integer value.num
  | other => other

/-- A value with representatives in place of its functions. -/
def canonical (store : Store) : Value → Value :=
  mapAtoms (canonicalAtom store)

/-- A value with floats in place of its integers. -/
def promoted : Value → Value :=
  mapAtoms promotedAtom

/-- A relation that compares lists item by item compares values by their forms, if it does so with
anything but two lists. -/
theorem related_iff_form_eq (related : Value → Value → Prop) (form : Value → Value)
    (itemwise : Itemwise form)
    (lists : ∀ items others, related (list items) (list others) ↔ List.Forall₂ related items others)
    (atoms : ∀ a b, a.kind ≠ .list ∨ b.kind ≠ .list → (related a b ↔ form a = form b))
    (a b : Value) : related a b ↔ form a = form b := by
  induction a generalizing b with
  | list items ih =>
      cases b with
      | list others =>
          rw [lists, itemwise, itemwise, Value.list.injEq]
          induction items generalizing others with
          | nil => cases others <;> simp
          | cons item items ihItems =>
              cases others with
              | nil => simp
              | cons other others =>
                  rw [List.forall_mem_cons] at ih
                  rw [List.forall₂_cons, ih.1 other, ihItems ih.2, List.map_cons, List.map_cons,
                    List.cons.injEq]
      | _ => exact atoms _ _ (Or.inr (by simp [kind]))
  | _ => exact atoms _ _ (Or.inl (by simp [kind]))

variable {store : Store}

theorem sameItems_iff {items others : List Value} :
    sameItems store items others ↔ List.Forall₂ (fun a b => a.same store b) items others := by
  induction items generalizing others with
  | nil => cases others <;> simp [sameItems]
  | cons item items ih => cases others <;> simp [sameItems, ih]

theorem equalItems_iff {items others : List Value} :
    equalItems store items others ↔ List.Forall₂ (fun a b => a.equal store b) items others := by
  induction items generalizing others with
  | nil => cases others <;> simp [equalItems]
  | cons item items ih => cases others <;> simp [equalItems, ih]

/-- Structural equality is equality of canonical forms. -/
theorem same_iff {a b : Value} : a.same store b ↔ a.canonical store = b.canonical store := by
  refine related_iff_form_eq (fun a b => a.same store b) _ (itemwise_mapAtoms _) ?_ ?_ a b
  · intro items others
    rw [same, sameItems_iff]
  · intro a b notLists
    cases a <;> cases b <;>
      simp [same, eqv, canonicalAtom, mapAtoms, Store.sameFunction_iff, kind] at notLists ⊢

theorem canonical_toValue (number : Number) : number.toValue.canonical store = number.toValue := by
  cases number <;> simp [Number.toValue, canonical, mapAtoms, canonicalAtom]

theorem promoted_toValue (number : Number) : number.toValue.promoted = float number.toRat := by
  cases number <;> simp [Number.toValue, Number.toRat, promoted, mapAtoms, promotedAtom]

theorem sameNumber_toValue {a b : Number} :
    sameNumber a.toValue b.toValue ↔ a.toValue.promoted = b.toValue.promoted := by
  rw [promoted_toValue, promoted_toValue, Value.float.injEq, ← (a.order_iff b).2.1, sameNumber,
    Number.ofValue_toValue, Number.ofValue_toValue]
  exact beq_iff_eq

/-- Equality by content is equality of promoted canonical forms. -/
theorem equal_iff {a b : Value} :
    a.equal store b ↔ (a.canonical store).promoted = (b.canonical store).promoted := by
  refine related_iff_form_eq (fun a b => a.equal store b)
    (fun value => (value.canonical store).promoted)
    ((itemwise_mapAtoms _).comp (itemwise_mapAtoms _)) ?_ ?_ a b
  · intro items others
    rw [equal, equalItems_iff]
  · intro a b notLists
    by_cases numbers : a.isNumber ∧ b.isNumber
    · rcases Number.exists_toValue_eq numbers.1 with ⟨a, rfl⟩
      rcases Number.exists_toValue_eq numbers.2 with ⟨b, rfl⟩
      have equal_eq : a.toValue.equal store b.toValue = sameNumber a.toValue b.toValue := by
        cases a <;> cases b <;> simp [Number.toValue, equal, isNumber]
      rw [equal_eq, sameNumber_toValue, canonical_toValue, canonical_toValue]
    · cases a <;> cases b <;>
        simp [equal, eqv, isNumber, canonical, canonicalAtom, promoted, promotedAtom, mapAtoms,
          Store.sameFunction_iff, kind] at notLists numbers ⊢

theorem equal_toValue_iff {m n : Number} :
    m.toValue.equal store n.toValue ↔ m.toRat = n.toRat := by
  rw [equal_iff, canonical_toValue, canonical_toValue, promoted_toValue, promoted_toValue,
    Value.float.injEq]

/-! ### Shallow equality -/

/-- A value is a list that has items. -/
def IsNonEmptyList (value : Value) : Prop :=
  ∃ head tail, value = list (head :: tail)

theorem eqv_iff {a b : Value} : a.eqv store b ↔ a.same store b ∧ ¬a.IsNonEmptyList := by
  cases a with
  | list items =>
      cases items with
      | nil => cases b <;> simp [eqv, same, sameItems_iff, IsNonEmptyList]
      | cons head tail => cases b <;> simp [eqv, IsNonEmptyList]
  | _ => cases b <;> simp [eqv, same, IsNonEmptyList]

theorem eqv_comm (a b : Value) : a.eqv store b = b.eqv store a := by
  cases a <;> cases b <;>
    simp [eqv, store.sameFunction_comm, Bool.beq_comm, Bool.and_comm]

/-! ### Values of few kinds -/

/-- A value occurs in another one, at some depth of nested lists. -/
inductive Occurs : Value → Value → Prop where
  | itself (value : Value) : Occurs value value
  | item {items : List Value} {item part : Value} (itemMem : item ∈ items)
      (inside : Occurs part item) : Occurs part (list items)

/-- No value of a kind occurs in a value. -/
def Lacks (kind : Kind) (value : Value) : Prop :=
  ∀ part, Occurs part value → part.kind ≠ kind

/-- Two forms of a value agree if they agree on the atoms that occur in it. -/
theorem Itemwise.congr {form other : Value → Value} (itemwise : Itemwise form)
    (otherItemwise : Itemwise other) {value : Value}
    (atoms : ∀ part, Occurs part value → part.kind ≠ .list → form part = other part) :
    form value = other value := by
  induction value with
  | list items ih =>
      rw [itemwise, otherItemwise, Value.list.injEq]
      apply List.map_congr_left
      intro item itemMem
      apply ih item itemMem
      intro part inside
      exact atoms part (.item itemMem inside)
  | _ => exact atoms _ (.itself _) (by simp [kind])

theorem promoted_canonical_of_lacks {value : Value} (lacks : value.Lacks .integer) :
    (value.canonical store).promoted = value.canonical store := by
  apply ((itemwise_mapAtoms _).comp (itemwise_mapAtoms _)).congr (itemwise_mapAtoms _)
  intro part inside notList
  have notInteger := lacks part inside
  cases part <;>
    simp [promotedAtom, canonicalAtom, mapAtoms, kind] at notList notInteger ⊢

theorem demoted_promoted_canonical_of_lacks {value : Value} (lacks : value.Lacks .float) :
    ((value.canonical store).promoted).mapAtoms demotedAtom = value.canonical store := by
  apply ((itemwise_mapAtoms _).comp ((itemwise_mapAtoms _).comp (itemwise_mapAtoms _))).congr
    (itemwise_mapAtoms _)
  intro part inside notList
  have notFloat := lacks part inside
  cases part <;>
    simp [promotedAtom, demotedAtom, canonicalAtom, mapAtoms, kind] at notList notFloat ⊢

theorem equal_eq_same {a b : Value}
    (oneKind : a.Lacks .float ∧ b.Lacks .float ∨ a.Lacks .integer ∧ b.Lacks .integer) :
    a.equal store b = a.same store b := by
  rw [Bool.eq_iff_iff, equal_iff, same_iff]
  refine ⟨?_, congrArg promoted⟩
  intro promoted_eq
  rcases oneKind with ⟨aLacks, bLacks⟩ | ⟨aLacks, bLacks⟩
  · rw [← demoted_promoted_canonical_of_lacks aLacks, promoted_eq,
      demoted_promoted_canonical_of_lacks bLacks]
  · rw [← promoted_canonical_of_lacks aLacks, promoted_eq, promoted_canonical_of_lacks bLacks]

end Value

theorem equivalence_of_iff {α β : Type} {related : α → α → Prop} {form : α → β}
    (compares : ∀ {a b}, related a b ↔ form a = form b) : Equivalence related where
  refl _ := compares.mpr rfl
  symm first := compares.mpr (compares.mp first).symm
  trans first second := compares.mpr ((compares.mp first).trans (compares.mp second))

/-- The three equalities are lawful and each is contained in the next, in every store. -/
theorem equalities_are_lawful_and_nested (store : Store) :
    Equivalence (fun a b : Value => a.equal store b = true) ∧
    Equivalence (fun a b : Value => a.same store b = true) ∧
    (∀ a b : Value, a.eqv store b → b.eqv store a) ∧
    (∀ a b c : Value, a.eqv store b → b.eqv store c → a.eqv store c) ∧
    (∀ a : Value, a.eqv store a ↔ ¬a.IsNonEmptyList) ∧
    (∀ a b : Value, a.eqv store b → a.same store b) ∧
    (∀ a b : Value, a.same store b → a.equal store b) ∧
    ∀ a b : Value,
      a.Lacks .float ∧ b.Lacks .float ∨ a.Lacks .integer ∧ b.Lacks .integer →
        a.equal store b = a.same store b := by
  have same : Equivalence (fun a b : Value => a.same store b = true) :=
    equivalence_of_iff Value.same_iff
  refine ⟨equivalence_of_iff Value.equal_iff, same, ?_, ?_, ?_, ?_, ?_, ?_⟩
  · intro a b isEqv
    rw [Value.eqv_comm]
    exact isEqv
  · intro a b c first second
    rw [Value.eqv_iff] at first second ⊢
    exact ⟨same.trans first.1 second.1, first.2⟩
  · intro a
    rw [Value.eqv_iff]
    exact and_iff_right (same.refl a)
  · intro a b isEqv
    exact (Value.eqv_iff.mp isEqv).1
  · intro a b isSame
    rw [Value.equal_iff, Value.same_iff.mp isSame]
  · intro a b oneKind
    exact Value.equal_eq_same oneKind

theorem reference_is_equal_to_its_function_in_lists :
    let store : Store := ⟨#[], #[⟨some "f", 0, .constant .nil⟩], #[some 0]⟩
    let reference : Value := .list [.integer 2, .function (.placeholder ⟨"f", 0⟩)]
    let finished : Value := .list [.integer 2, .function (.closure 0)]
    reference.Lacks .float ∧ finished.Lacks .float ∧ reference.same store finished ∧
      reference.equal store finished ∧ ¬reference.eqv store finished := by
  intro store reference finished
  have lacks : ∀ callee, Value.Lacks .float (.list [.integer 2, .function callee]) := by
    intro callee part inside
    cases inside with
    | itself => simp [Value.kind]
    | item itemMem inside =>
        simp only [List.mem_cons, List.not_mem_nil, or_false] at itemMem
        rcases itemMem with rfl | rfl <;> cases inside <;> simp [Value.kind]
  have isSame : reference.same store finished := rfl
  rcases equalities_are_lawful_and_nested store with ⟨_, _, _, _, _, _, _, oneKind⟩
  refine ⟨lacks _, lacks _, isSame, ?_, by decide⟩
  rw [oneKind reference finished (Or.inl ⟨lacks _, lacks _⟩)]
  exact isSame

end ExactLisp
