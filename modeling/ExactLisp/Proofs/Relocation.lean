import ExactLisp.Proofs.Grammar

/-!
# Moving forms within a text

A form that is read from a longer text differs from the same form read alone in its offsets only.
Here the offsets of tokens, forms and faults are moved by any function. The grammar does not look at
offsets, so what is written stays written (`Form.Written.relocate`); turning forms into expressions
does not look at them either, and passes them on in faults (`Form.toCode_relocate`).
-/

namespace ExactLisp

/-- An extent with both ends moved. -/
def Extent.relocate (move : Nat → Nat) (extent : Extent) : Extent :=
  ⟨move extent.start, move extent.stop⟩

/-- A token found elsewhere. -/
def Lexeme.relocate (move : Nat → Nat) (lexeme : Lexeme) : Lexeme :=
  ⟨lexeme.token, lexeme.extent.relocate move⟩

/-! ### Errors -/

section Errors

variable {ε δ α β : Type}

@[simp]
theorem mapError_error (error : ε) (change : ε → δ) :
    (.error error : Except ε α).mapError change = .error (change error) := rfl

@[simp]
theorem mapError_bind (result : Except ε α) (next : α → Except ε β) (change : ε → δ) :
    (result >>= next).mapError change =
      result.mapError change >>= fun value => (next value).mapError change := by
  cases result <;> rfl

@[simp]
theorem mapError_map (result : Except ε α) (apply : α → β) (change : ε → δ) :
    (apply <$> result).mapError change = apply <$> result.mapError change := by
  cases result <;> rfl

end Errors

/-- A fault found elsewhere. -/
def Fault.relocate (move : Nat → Nat) (fault : Fault) : Fault :=
  ⟨fault.problem, fault.extent.relocate move⟩

@[simp]
theorem Fault.relocate_mk (move : Nat → Nat) (problem : FormProblem) (extent : Extent) :
    Fault.relocate move ⟨problem, extent⟩ = ⟨problem, extent.relocate move⟩ := rfl

namespace Form

mutual

/-- A form written elsewhere. -/
def relocate (move : Nat → Nat) : Form → Form
  | word extent run => word (extent.relocate move) run
  | text extent raw => text (extent.relocate move) raw
  | marked extent mark form => marked (extent.relocate move) mark (form.relocate move)
  | list extent items => list (extent.relocate move) (relocateEach move items)

/-- Forms written elsewhere. -/
def relocateEach (move : Nat → Nat) : List Form → List Form
  | [] => []
  | form :: forms => form.relocate move :: relocateEach move forms

end

variable {move : Nat → Nat}

@[simp]
theorem relocateEach_eq_map (move : Nat → Nat) (forms : List Form) :
    relocateEach move forms = forms.map (relocate move) := by
  induction forms with
  | nil => rfl
  | cons form forms ih => simp [relocateEach, ih]

@[simp]
theorem extent_relocate (move : Nat → Nat) (form : Form) :
    (form.relocate move).extent = form.extent.relocate move := by
  cases form <;> rfl

/-- Induction over forms, with a hypothesis for every item of a list. -/
@[elab_as_elim, induction_eliminator]
theorem induct {motive : Form → Prop}
    (word : ∀ extent run, motive (.word extent run))
    (text : ∀ extent raw, motive (.text extent raw))
    (marked : ∀ extent mark form, motive form → motive (.marked extent mark form))
    (list : ∀ extent items, (∀ item ∈ items, motive item) → motive (.list extent items))
    (form : Form) : motive form :=
  @Form.rec motive (fun items => ∀ item ∈ items, motive item) word text marked list
    (fun _ absent => absurd absent List.not_mem_nil)
    (fun _ _ ihHead ihTail => List.forall_mem_cons.mpr ⟨ihHead, ihTail⟩) form

/-! ### The grammar -/

theorem Written.relocate {form : Form} {lexemes : List Lexeme} (move : Nat → Nat)
    (written : form.Written lexemes) :
    (form.relocate move).Written (lexemes.map (Lexeme.relocate move)) := by
  induction written with
  | word => exact .word
  | text => exact .text
  | @marked extent mark form lexemes _ ih =>
      have marked := @Written.marked (extent.relocate move) mark _ _ ih
      rw [extent_relocate] at marked
      exact marked
  | @list first last parts _ ih =>
      have each : ∀ part ∈ parts.map (fun part : Form × List Lexeme =>
          (part.1.relocate move, part.2.map (Lexeme.relocate move))), Written part.1 part.2 :=
        List.forall_mem_map.mpr ih
      have list := @Written.list (first.relocate move) (last.relocate move) _ each
      simpa [Form.relocate, Extent.relocate, Lexeme.relocate, Function.comp_def,
        List.flatMap_map, List.map_flatMap] using list

theorem WrittenEach.relocate {forms : List Form} {lexemes : List Lexeme} (move : Nat → Nat)
    (written : WrittenEach forms lexemes) :
    WrittenEach (forms.map (Form.relocate move)) (lexemes.map (Lexeme.relocate move)) := by
  rcases written with ⟨parts, each, rfl, rfl⟩
  refine ⟨parts.map fun part => (part.1.relocate move, part.2.map (Lexeme.relocate move)), ?_,
    by simp, by simp [List.flatMap_map, List.map_flatMap]⟩
  simp only [List.forall_mem_map]
  intro part partMem
  exact (each part partMem).relocate move

/-- Tokens are the writing of one sequence of forms at most. -/
theorem WrittenEach.unique {first second : List Form} {lexemes : List Lexeme}
    (writtenFirst : WrittenEach first lexemes) (writtenSecond : WrittenEach second lexemes) :
    first = second := by
  have read := (Reader.advance_writtenEach writtenFirst []).symm.trans
    (Reader.advance_writtenEach writtenSecond [])
  simpa using read

/-! ### Expressions -/

theorem keyword?_relocate (move : Nat → Nat) (items : List Form) :
    Form.keyword? (items.map (relocate move)) = Form.keyword? items := by
  cases items with
  | nil => rfl
  | cons item items => cases item <;> rfl

@[simp]
theorem symbolName_relocate (move : Nat → Nat) (form : Form) :
    (form.relocate move).symbolName = form.symbolName.mapError (Fault.relocate move) := by
  cases form with
  | word extent run =>
      simp only [relocate, symbolName]
      split <;> rfl
  | text extent raw => rfl
  | marked extent mark form => rfl
  | list extent items => rfl

theorem parameterNames_relocate (move : Nat → Nat) (earlier : List String) (items : List Form) :
    parameterNames earlier (items.map (relocate move)) =
      (parameterNames earlier items).mapError (Fault.relocate move) := by
  induction items generalizing earlier with
  | nil => rfl
  | cons item items ih =>
      simp only [List.map_cons, parameterNames, symbolName_relocate, mapError_bind]
      congr 1
      funext name
      split
      · simp [Except.mapError, Fault.relocate]
      · exact ih (name :: earlier)

@[simp]
theorem parameters_relocate (move : Nat → Nat) (form : Form) :
    (form.relocate move).parameters = form.parameters.mapError (Fault.relocate move) := by
  cases form with
  | word extent run =>
      simp only [relocate, parameters]
      split <;> rfl
  | text extent raw => rfl
  | marked extent mark form => rfl
  | list extent items =>
      simp only [relocate, parameters, relocateEach_eq_map]
      exact parameterNames_relocate move [] items

theorem ofWord_relocate (move : Nat → Nat) (extent : Extent) (run : List Char) :
    Expr.ofWord (extent.relocate move) run =
      (Expr.ofWord extent run).mapError (Fault.relocate move) := by
  simp only [Expr.ofWord]
  split <;> try rfl
  split <;> rfl

theorem ofText_relocate (move : Nat → Nat) (extent : Extent) (raw : List Char) :
    Expr.ofText (extent.relocate move) raw =
      (Expr.ofText extent raw).mapError (Fault.relocate move) := by
  simp only [Expr.ofText]
  split <;> rfl

theorem toCodes_relocate_of {forms : List Form} (each : ∀ form ∈ forms,
      (form.relocate move).toCode = form.toCode.mapError (Fault.relocate move)) :
    toCodes (forms.map (relocate move)) = (toCodes forms).mapError (Fault.relocate move) := by
  induction forms with
  | nil => rfl
  | cons form forms ih =>
      rw [List.forall_mem_cons] at each
      simp only [List.map_cons, toCodes, mapError_bind, each.1, ih each.2]
      rfl

theorem toData_relocate_of {forms : List Form} (each : ∀ form ∈ forms,
      (form.relocate move).toDatum = form.toDatum.mapError (Fault.relocate move)) :
    toData (forms.map (relocate move)) = (toData forms).mapError (Fault.relocate move) := by
  induction forms with
  | nil => rfl
  | cons form forms ih =>
      rw [List.forall_mem_cons] at each
      simp only [List.map_cons, toData, mapError_bind, each.1, ih each.2]
      rfl

/-- Where a form stands decides where its fault lies, and nothing else. -/
theorem toCode_relocate (move : Nat → Nat) (form : Form) :
    (form.relocate move).toCode = form.toCode.mapError (Fault.relocate move) ∧
      (form.relocate move).toDatum = form.toDatum.mapError (Fault.relocate move) := by
  induction form with
  | word extent run => exact ⟨ofWord_relocate move extent run, ofWord_relocate move extent run⟩
  | text extent raw => exact ⟨ofText_relocate move extent raw, ofText_relocate move extent raw⟩
  | marked extent mark form ih =>
      cases mark with
      | quote => simp only [relocate, toCode, toDatum, mapError_map, ih, and_self]
      | unquote => simp only [relocate, toCode, toDatum, mapError_map, ih, and_self]
  | list extent items ih =>
      constructor
      · have codes : ∀ forms : List Form, forms ⊆ items → toCodes (forms.map (relocate move)) =
            (toCodes forms).mapError (Fault.relocate move) := fun forms among =>
          toCodes_relocate_of fun form formMem => (ih form (among formMem)).1
        simp only [relocate, relocateEach_eq_map]
        rw [toCode.eq_def, toCode.eq_def]
        simp only [keyword?_relocate]
        cases headed : Form.keyword? items with
        | none =>
            simp only [mapError_map, codes items (List.Subset.refl _)]
        | some keyword =>
            -- the keyword decides how many items there have to be
            cases keyword with
            | quote =>
                rcases items with _ | ⟨head, _ | ⟨datum, _ | ⟨extra, rest⟩⟩⟩ <;> simp [ih]
            | branch =>
                rcases items with _ | ⟨head, _ | ⟨test, _ | ⟨onTrue, _ | ⟨onFalse, _ | ⟨extra,
                  rest⟩⟩⟩⟩⟩ <;> simp [ih]
            | define | set =>
                rcases items with _ | ⟨head, _ | ⟨name, _ | ⟨value, _ | ⟨extra, rest⟩⟩⟩⟩ <;>
                  simp [ih]
            | lambda =>
                rcases items with _ | ⟨head, _ | ⟨params, _ | ⟨form, forms⟩⟩⟩
                · simp
                · simp
                · simp
                · have body := codes forms fun _ formMem => by simp [formMem]
                  simp [ih, body]
            | defun =>
                rcases items with _ | ⟨head, _ | ⟨name, _ | ⟨params, _ | ⟨form, forms⟩⟩⟩⟩
                · simp
                · simp
                · simp
                · simp
                · have body := codes forms fun _ formMem => by simp [formMem]
                  simp [ih, body]
            | unquote | sequence => simp
      · simp only [relocate, relocateEach_eq_map, toDatum, mapError_map]
        rw [toData_relocate_of fun item itemMem => (ih item itemMem).2]

end Form

end ExactLisp
