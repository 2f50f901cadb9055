import ExactLisp.Proofs.Induction
import ExactLisp.Proofs.Outcome

/-!
# The functions in values

A value may hold functions at any depth of nested lists, and nothing else in it depends on a store.
Primitive operations make no functions: what they return holds functions of their arguments only,
and they pass only such functions on. So an operation does the same in two stores that see the
functions of its arguments alike.
-/

namespace ExactLisp

/-! ### Functions held by values -/

namespace Value

mutual

/-- The functions that a value holds, at any depth. -/
def functions : Value → List Function
  | function callee => [callee]
  | list items => functionsOf items
  | _ => []

/-- The functions that the values of a list hold. -/
def functionsOf : List Value → List Function
  | [] => []
  | value :: values => value.functions ++ functionsOf values

end

theorem mem_functionsOf {callee : Function} {values : List Value} :
    callee ∈ functionsOf values ↔ ∃ value ∈ values, callee ∈ value.functions := by
  induction values with
  | nil => simp [functionsOf]
  | cons value values ih => simp [functionsOf, ih]

/-- Every function that a value holds has a property. -/
def All (permitted : Function → Prop) (value : Value) : Prop :=
  ∀ callee ∈ value.functions, permitted callee

variable {permitted : Function → Prop}

@[simp]
theorem all_nil : All permitted nil := by simp [All, functions]

@[simp]
theorem all_boolean (value : Bool) : All permitted (boolean value) := by simp [All, functions]

@[simp]
theorem all_integer (value : Int) : All permitted (integer value) := by simp [All, functions]

@[simp]
theorem all_float (value : Rat) : All permitted (float value) := by simp [All, functions]

@[simp]
theorem all_string (value : String) : All permitted (string value) := by simp [All, functions]

@[simp]
theorem all_symbol (name : String) : All permitted (symbol name) := by simp [All, functions]

@[simp]
theorem all_function {callee : Function} :
    All permitted (function callee) ↔ permitted callee := by
  simp [All, functions]

@[simp]
theorem all_list {items : List Value} :
    All permitted (list items) ↔ ∀ item ∈ items, All permitted item := by
  simp only [All, functions, mem_functionsOf]
  constructor
  · intro each item itemMem callee calleeMem
    exact each callee ⟨item, itemMem, calleeMem⟩
  · rintro each callee ⟨item, itemMem, calleeMem⟩
    exact each item itemMem callee calleeMem

@[simp]
theorem all_ofLiteral (value : Literal) : All permitted (ofLiteral value) := by
  cases value <;> simp [ofLiteral]

@[simp]
theorem all_quoted {datum : Value} : All permitted datum.quoted ↔ All permitted datum := by
  simp [quoted]

@[simp]
theorem all_toValue (number : Number) : All permitted number.toValue := by
  cases number <;> simp [Number.toValue]

theorem All.mono {more : Function → Prop} {value : Value} (all : All permitted value)
    (weaken : ∀ callee, permitted callee → more callee) : All more value :=
  fun callee calleeMem => weaken callee (all callee calleeMem)

theorem all_getLastD {values : List Value} (each : ∀ value ∈ values, All permitted value) :
    All permitted (values.getLastD nil) := by
  rw [List.getLastD_eq_getLast?]
  cases last : values.getLast? with
  | none => simp
  | some value => exact each value (List.mem_of_getLast? last)

end Value

/-! ### Equality in two stores -/

section Equality

variable {left right : Store} {permitted : Function → Prop}

theorem Store.sameFunction_congr {f g : Function} (agreeF : right.closureId? f = left.closureId? f)
    (agreeG : right.closureId? g = left.closureId? g) :
    right.sameFunction f g = left.sameFunction f g := by
  have sameClosure : right.sameClosure f g = left.sameClosure f g := by
    rw [Store.sameClosure, Store.sameClosure, agreeF, agreeG]
  unfold Store.sameFunction
  split
  · rfl
  · rw [sameClosure]
  · exact sameClosure

theorem Value.eqv_congr (agree : ∀ callee, permitted callee →
      right.closureId? callee = left.closureId? callee) {a b : Value}
    (allA : a.All permitted) (allB : b.All permitted) : a.eqv right b = a.eqv left b := by
  unfold Value.eqv
  split
  case h_7 =>
      rw [all_function] at allA allB
      exact Store.sameFunction_congr (agree _ allA) (agree _ allB)
  all_goals rfl

theorem Value.equal_congr (agree : ∀ callee, permitted callee →
      right.closureId? callee = left.closureId? callee) {a b : Value}
    (allA : a.All permitted) (allB : b.All permitted) : a.equal right b = a.equal left b := by
  induction a generalizing b with
  | list items ih =>
      cases b with
      | list others =>
          rw [Value.equal, Value.equal]
          rw [all_list] at allA allB
          induction items generalizing others with
          | nil => cases others <;> simp [Value.equalItems]
          | cons item items ihItems =>
              cases others with
              | nil => simp [Value.equalItems]
              | cons other others =>
                  rw [List.forall_mem_cons] at allA allB
                  have first := ih item List.mem_cons_self allA.1 allB.1
                  have rest := ihItems
                    (fun item itemMem => ih item (List.mem_cons_of_mem _ itemMem))
                    allA.2 others allB.2
                  rw [Value.equalItems, Value.equalItems, first, rest]
      | _ => simp [Value.equal, Value.eqv_congr agree allA allB]
  | _ =>
      cases b <;> simp [Value.equal, Value.eqv_congr agree allA allB]

end Equality

/-! ### Primitive operations -/

/-- An error that no program can be blamed for: a body reads an argument that was not passed, or a
forward reference refers to nothing. -/
def EvalError.isInternal : EvalError → Bool
  | missingArgument _ _ | unresolvedFunction _ => true
  | _ => false

/-- A failure is such an error. -/
def Failure.isInternal : Failure → Bool
  | error cause => cause.isInternal
  | outOfDepth => false

/-- An error that an operation reports about its arguments. -/
def EvalError.isOperational : EvalError → Bool
  | arityMismatch .. | typeMismatch .. | emptyList _ | divisionByZero => true
  | _ => false

theorem EvalError.not_internal_of_operational {cause : EvalError}
    (operational : cause.isOperational) : cause.isInternal = false := by
  cases cause <;> simp [isOperational, isInternal] at *

section Primitive

variable {permitted : Function → Prop} {fails : EvalError → Prop}

theorem Value.coincide_asFunction (harmless : ∀ cause, cause.isOperational → fails cause)
    (operation : String) {value : Value} (all : value.All permitted) :
    Coincide permitted fails (value.asFunction operation) (value.asFunction operation) := by
  refine ⟨rfl, ?_⟩
  cases value with
  | function callee => simpa [Value.asFunction, Meets] using all
  | _ => exact harmless _ rfl

theorem Value.coincide_asList (harmless : ∀ cause, cause.isOperational → fails cause)
    (operation : String) {value : Value} (all : value.All permitted) :
    Coincide (fun items => ∀ item ∈ items, item.All permitted) fails
      (value.asList operation) (value.asList operation) := by
  refine ⟨rfl, ?_⟩
  cases value with
  | nil => simp [Value.asList, Meets]
  | list items => simpa [Value.asList, Meets] using all
  | _ => exact harmless _ rfl

theorem Value.coincide_asNonEmptyList (harmless : ∀ cause, cause.isOperational → fails cause)
    (operation : String) {value : Value} (all : value.All permitted) :
    Coincide (fun items => items.1.All permitted ∧ ∀ item ∈ items.2, item.All permitted) fails
      (value.asNonEmptyList operation) (value.asNonEmptyList operation) := by
  refine ⟨rfl, ?_⟩
  cases value with
  | list items =>
      cases items with
      | nil => exact harmless _ rfl
      | cons head tail => simpa [Value.asNonEmptyList, Meets] using all
  | _ => exact harmless _ rfl

theorem Number.coincide_ofValue (harmless : ∀ cause, cause.isOperational → fails cause)
    (operation : String) (value : Value) :
    Coincide (fun _ => True) fails (ofValue operation value) (ofValue operation value) := by
  refine ⟨rfl, ?_⟩
  cases value with
  | integer value => trivial
  | float value => trivial
  | _ => exact harmless _ rfl

theorem Number.coincide_divide (harmless : ∀ cause, cause.isOperational → fails cause)
    (dividend divisor : Number) :
    Coincide (fun _ => True) fails (dividend.divide divisor) (dividend.divide divisor) := by
  refine ⟨rfl, ?_⟩
  rw [divide]
  split
  · exact harmless _ rfl
  · trivial

theorem Primitive.coincide_compareNumbers
    (harmless : ∀ cause, cause.isOperational → fails cause) (operation : String)
    (accepted : Ordering → Bool) (a b : Value) :
    Coincide (Value.All permitted) fails (compareNumbers operation accepted a b)
      (compareNumbers operation accepted a b) := by
  apply Coincide.bind (Number.coincide_ofValue harmless operation a)
  intro numberA _
  apply Coincide.bind (Number.coincide_ofValue harmless operation b)
  intro numberB _
  exact .ok (by simp)

theorem Primitive.coincide_compute {left right : Store}
    (harmless : ∀ cause, cause.isOperational → fails cause)
    (agree : ∀ callee, permitted callee → right.closureId? callee = left.closureId? callee)
    (primitive : Primitive) {args : List Value} (each : ∀ arg ∈ args, arg.All permitted) :
    Coincide (Value.All permitted) fails (primitive.compute left args)
      (primitive.compute right args) := by
  have ofValue := fun operation value => Number.coincide_ofValue harmless operation value
  have ofValues := fun operation => Coincide.mapM args fun arg _ => ofValue operation arg
  unfold Primitive.compute
  -- one case for each equation of `compute`, in their order
  split
  · rw [List.forall_mem_singleton] at each
    exact (Value.coincide_asNonEmptyList harmless "car" each).map fun _ items => items.1
  · rw [List.forall_mem_singleton] at each
    refine (Value.coincide_asNonEmptyList harmless "cdr" each).map ?_
    intro items itemsAll
    simpa using itemsAll.2
  · rw [List.forall_mem_cons, List.forall_mem_singleton] at each
    refine (Value.coincide_asList harmless "cons" each.2).map ?_
    intro items itemsAll
    rw [Value.all_list, List.forall_mem_cons]
    exact ⟨each.1, itemsAll⟩
  · exact .ok (Value.all_list.mpr each)
  · rw [List.forall_mem_singleton] at each
    exact (Value.coincide_asList harmless "length" each).map fun _ _ => by simp
  · exact (ofValues "+").bind fun numbers _ => .ok (by simp)
  · exact (ofValue "-" _).bind fun number _ => .ok (by simp)
  · apply (ofValue "-" _).bind
    intro minuend _
    exact (ofValue "-" _).bind fun subtrahend _ => .ok (by simp)
  · exact (ofValues "*").bind fun numbers _ => .ok (by simp)
  · apply (ofValue "/" _).bind
    intro dividend _
    apply (ofValue "/" _).bind
    intro divisor _
    exact (Number.coincide_divide harmless dividend divisor).bind fun quotient _ => .ok (by simp)
  · exact coincide_compareNumbers harmless ">" _ _ _
  · exact coincide_compareNumbers harmless "<" _ _ _
  · exact coincide_compareNumbers harmless ">=" _ _ _
  · exact coincide_compareNumbers harmless "<=" _ _ _
  · exact coincide_compareNumbers harmless "=" _ _ _
  · rw [List.forall_mem_cons, List.forall_mem_singleton] at each
    rw [Value.eqv_congr agree each.1 each.2]
    exact .ok (by simp)
  · rw [List.forall_mem_cons, List.forall_mem_singleton] at each
    rw [Value.equal_congr agree each.1 each.2]
    exact .ok (by simp)
  · exact .ok (by simp)
  · exact .ok (by simp)
  · exact .ok (by simp)
  · exact .ok (Value.all_getLastD each)
  · exact .error (harmless _ rfl)

theorem Primitive.all_splice {values : List Value} (each : ∀ value ∈ values, value.All permitted) :
    ∀ value ∈ splice values, value.All permitted := by
  intro value valueMem
  rcases List.mem_flatMap.mp valueMem with ⟨source, sourceMem, valueMem⟩
  have sourceAll := each source sourceMem
  split at valueMem
  · exact Value.all_list.mp sourceAll value valueMem
  · rw [List.mem_singleton.mp valueMem]
    exact sourceAll

theorem Primitive.all_rows {lists : List (List Value)}
    (each : ∀ items ∈ lists, ∀ item ∈ items, item.All permitted) :
    ∀ row ∈ rows lists, ∀ value ∈ row, value.All permitted := by
  intro row rowMem value valueMem
  rcases List.mem_map.mp rowMem with ⟨index, _, rfl⟩
  rcases List.mem_map.mp valueMem with ⟨items, itemsMem, rfl⟩
  rw [List.getD_eq_getElem?_getD]
  cases found : items[index]? with
  | none => simp
  | some item => exact each items itemsMem item (List.mem_of_getElem? found)

/-- An operation does the same in two stores that see the functions of its arguments alike, if the
calls that it makes do. It calls functions of its arguments only, on values that hold no others. -/
theorem Primitive.coincide_run {left right : Store}
    {invokeLeft invokeRight : Function → List Value → Except Failure Value}
    {fails : Failure → Prop} (harmless : ∀ cause, cause.isOperational → fails (.error cause))
    (agree : ∀ callee, permitted callee → right.closureId? callee = left.closureId? callee)
    (invoke : ∀ callee values, permitted callee → (∀ value ∈ values, value.All permitted) →
      Coincide (Value.All permitted) fails (invokeLeft callee values) (invokeRight callee values))
    (primitive : Primitive) {args : List Value} (each : ∀ arg ∈ args, arg.All permitted) :
    Coincide (Value.All permitted) fails (primitive.run left invokeLeft args)
      (primitive.run right invokeRight args) := by
  unfold Primitive.run
  split
  · rw [List.forall_mem_cons] at each
    apply (coincide_orFail (Value.coincide_asFunction harmless "apply" each.1)).bind
    intro callee calleePermitted
    exact invoke callee _ calleePermitted (all_splice each.2)
  · rw [List.forall_mem_cons] at each
    apply (coincide_orFail (Value.coincide_asFunction harmless "map" each.1)).bind
    intro callee calleePermitted
    have asLists := Coincide.mapM _ fun value valueMem =>
      Value.coincide_asList harmless "map" (each.2 value valueMem)
    apply (coincide_orFail asLists).bind
    intro lists listsAll
    have results := Coincide.mapM (rows lists) fun row rowMem =>
      invoke callee row calleePermitted (all_rows listsAll row rowMem)
    exact results.bind fun values valuesAll => .ok (Value.all_list.mpr valuesAll)
  · exact coincide_orFail (coincide_compute harmless agree _ each)

end Primitive

end ExactLisp
