import ExactLisp.Expr.Eval
import ExactLisp.Proofs.Compilable
import Mathlib.Data.List.Nodup

/-!
# Parameter names

The parameters of a function may have any names. Compilation turns a parameter into its position, so
a body in which all parameters are renamed at once compiles to the very same node, if the new names
are distinct and none of them captures a name that the body already reads as code. Symbols that are
read as data are no names of parameters and stay.

What compilation knows of names is what they refer to at the head of a call. If two contexts agree
on that for all symbols that a body reads as code, under a change of these symbols, they compile the
body and the changed body alike (`Expr.compile_respell`).
-/

namespace ExactLisp

/-- The name that a name is changed to when parameters get the names at their places. -/
def renamed (params names : List String) (name : String) : String :=
  ((params.zip names).lookup name).getD name

namespace Expr

mutual

/-- An expression that is read in one way or the other, with the symbols that are read as code
changed. -/
def respell (change : String → String) : Reading → Expr → Expr
  | _, literal value => literal value
  | .code, symbol name => symbol (change name)
  | .data, symbol name => symbol name
  | reading, list items => list (respellEach change reading items)
  | _, quote datum => quote (datum.respell change .data)
  | _, unquote code => unquote (code.respell change .code)
  | reading, sequence forms => sequence (respellEach change reading forms)
  | reading, branch test onTrue onFalse =>
    branch (test.respell change reading) (onTrue.respell change reading)
      (onFalse.respell change reading)
  | reading, define name value => define name (value.respell change reading)
  | reading, set name value => set name (value.respell change reading)
  | reading, lambda params body => lambda params (body.respell change reading)
  | reading, defun name params body => defun name params (body.respell change reading)

/-- Expressions that are read alike, with the symbols that are read as code changed. -/
def respellEach (change : String → String) : Reading → List Expr → List Expr
  | _, [] => []
  | reading, expr :: exprs => expr.respell change reading :: respellEach change reading exprs

end

end Expr

/-! ### Names -/

section Names

variable {params names : List String} {change : String → String} {name : String}

theorem renamed_of_not_mem (notParam : name ∉ params) : renamed params names name = name := by
  have notFound : (params.zip names).lookup name = none := by
    rw [List.lookup_eq_none_iff]
    rintro ⟨param, other⟩ pairMem
    have paramMem := (List.of_mem_zip pairMem).1
    simpa using fun same : name = param => notParam (same ▸ paramMem)
  rw [renamed, notFound, Option.getD_none]

/-- The parameters are renamed to the new names, in order. -/
theorem map_renamed (distinct : params.Nodup) (sameLength : names.length = params.length) :
    params.map (renamed params names) = names := by
  induction params generalizing names with
  | nil => exact (List.length_eq_zero_iff.mp sameLength).symm
  | cons param params ih =>
      rcases List.exists_cons_of_length_eq_add_one sameLength with ⟨name, others, rfl⟩
      rw [List.nodup_cons] at distinct
      have renamedHead : renamed (param :: params) (name :: others) param = name := by
        simp [renamed]
      have renamedTail : ∀ other ∈ params,
          renamed (param :: params) (name :: others) other = renamed params others other := by
        intro other otherMem
        have notHead : (other == param) = false :=
          beq_false_of_ne fun same => distinct.1 (same ▸ otherMem)
        simp [renamed, List.lookup_cons, notHead]
      rw [List.map_cons, renamedHead, List.map_congr_left renamedTail,
        ih distinct.2 (by simpa using sameLength)]

theorem CompileContext.parameter?_map {self? : Option Placeholder} {scope : Scope} {store : Store}
    (apart : ∀ param ∈ params, change param = change name ↔ param = name) :
    parameter? ⟨params.map change, self?, scope, store⟩ (change name) =
      parameter? ⟨params, self?, scope, store⟩ name := by
  have sameFound : params.zipIdx.reverse.filter ((·.1 == change name) ∘ Prod.map change id) =
      params.zipIdx.reverse.filter (·.1 == name) := by
    apply List.filter_congr
    rintro ⟨param, index⟩ pairMem
    have paramMem := List.fst_mem_of_mem_zipIdx (List.mem_reverse.mp pairMem)
    simp [apart param paramMem]
  simp only [parameter?, List.zipIdx_map, ← List.map_reverse, ← List.head?_filter,
    List.filter_map, sameFound, List.head?_map, Option.map_map]
  rfl

theorem CompileContext.parameter?_eq_none_iff {context : CompileContext} :
    context.parameter? name = none ↔ name ∉ context.params := by
  rw [parameter?, Option.map_eq_none_iff, List.find?_eq_none]
  constructor
  · intro notFound isParam
    rcases List.getElem?_of_mem isParam with ⟨index, atIndex⟩
    have pairMem : (name, index) ∈ context.params.zipIdx.reverse :=
      List.mem_reverse.mpr (List.mem_zipIdx_iff_getElem?.mpr atIndex)
    exact notFound _ pairMem (beq_self_eq_true name)
  · rintro notParam ⟨param, index⟩ pairMem isName
    have paramMem := List.fst_mem_of_mem_zipIdx (List.mem_reverse.mp pairMem)
    exact notParam (beq_iff_eq.mp isName ▸ paramMem)

/-- A name refers to the same after a change of parameters that keeps them distinct, keeps all other
names, and does not make a parameter of that name. -/
theorem CompileContext.headReference_change {self? : Option Placeholder} {scope : Scope}
    {store : Store} (areNames : params.map change = names) (distinct : names.Nodup)
    (kept : ∀ name, name ∉ params → change name = name) (free : name ∈ names → name ∈ params) :
    headReference ⟨names, self?, scope, store⟩ (change name) =
      headReference ⟨params, self?, scope, store⟩ name := by
  subst areNames
  have apart : ∀ param ∈ params, change param = change name ↔ param = name := by
    intro param paramMem
    refine ⟨?_, congrArg change⟩
    intro same
    by_cases isParam : name ∈ params
    · exact List.inj_on_of_nodup_map distinct paramMem isParam same
    · rw [kept name isParam] at same
      exact absurd (free (List.mem_map.mpr ⟨param, paramMem, same⟩)) isParam
  rw [headReference, headReference, parameter?_map apart]
  cases found : parameter? ⟨params, self?, scope, store⟩ name with
  | some index => rfl
  | none =>
      rw [kept name (parameter?_eq_none_iff.mp found)]
      rfl

end Names

/-! ### Compilation -/

/-- Two contexts agree on all symbols that are read as code, when these are changed. -/
def CompileContext.Alike (change : String → String) (left right : CompileContext)
    (visits : List Visit) : Prop :=
  ∀ name, ⟨.code, .symbol name⟩ ∈ visits →
    right.headReference (change name) = left.headReference name

theorem mapM_map_eq {ε α β γ : Type} {visit : α → Except ε β} {other : γ → Except ε β}
    {change : α → γ} {items : List α} (each : ∀ item ∈ items, other (change item) = visit item) :
    (items.map change).mapM other = items.mapM visit := by
  induction items with
  | nil => rfl
  | cons item items ih =>
      rw [List.forall_mem_cons] at each
      rw [List.map_cons, List.mapM_cons, List.mapM_cons, each.1, ih each.2]

section Compile

variable {change : String → String} {left right : CompileContext} {visits others : List Visit}

namespace CompileContext.Alike

theorem of_subset (alike : Alike change left right visits) (subset : others ⊆ visits) :
    Alike change left right others :=
  fun name nameMem => alike name (subset nameMem)

theorem callHead {head : Expr} (alike : Alike change left right (head.visits .code)) (node : Node) :
    right.callHead (head.respell change .code) node = left.callHead head node := by
  cases head with
  | symbol name => exact alike name List.mem_cons_self
  | _ => rfl

end CompileContext.Alike

namespace Expr

theorem respellEach_eq_map (change : String → String) (reading : Reading) (exprs : List Expr) :
    respellEach change reading exprs = exprs.map (respell change reading) := by
  induction exprs with
  | nil => rfl
  | cons expr exprs ih => rw [respellEach, ih, List.map_cons]

theorem visits_subset {reading : Reading} {expr : Expr} {exprs : List Expr}
    (exprMem : expr ∈ exprs) : expr.visits reading ⊆ visitsOf reading exprs := by
  induction exprs with
  | nil => exact absurd exprMem List.not_mem_nil
  | cons first exprs ih =>
      rw [visitsOf]
      rcases List.mem_cons.mp exprMem with rfl | exprMem
      · exact List.subset_append_left _ _
      · exact List.subset_append_of_subset_right _ (ih exprMem)

/-- Where two contexts agree on all symbols that are read as code, a body and the changed body
compile to one node, or fail with one error. -/
theorem compile_respell (expr : Expr) :
    (CompileContext.Alike change left right (expr.visits .code) →
      (expr.respell change .code).compile right = expr.compile left) ∧
    (CompileContext.Alike change left right (expr.visits .data) →
      (expr.respell change .data).compileDatum right = expr.compileDatum left) := by
  induction expr with
  | literal | define | set | lambda | defun => exact ⟨fun _ => rfl, fun _ => rfl⟩
  | symbol name =>
      refine ⟨?_, fun _ => rfl⟩
      intro alike
      rw [respell, compile, compile, CompileContext.valueReference, CompileContext.valueReference,
        alike name List.mem_cons_self]
  | list items ih =>
      have each : ∀ reading, CompileContext.Alike change left right ((list items).visits reading) →
          ∀ item ∈ items, CompileContext.Alike change left right (item.visits reading) := by
        intro reading alike item itemMem
        refine alike.of_subset (List.Subset.trans (visits_subset itemMem) ?_)
        cases reading <;> exact List.subset_cons_self _ _
      constructor
      · intro alike
        rw [respell, respellEach_eq_map]
        cases items with
        | nil => rfl
        | cons head args =>
            have sameArgs := mapM_map_eq fun arg argMem => (ih arg (List.mem_cons_of_mem _ argMem)).1
              (each .code alike arg (List.mem_cons_of_mem _ argMem))
            have alikeHead := each .code alike head List.mem_cons_self
            rw [List.map_cons, compile, compile, compileEach_eq_mapM, compileEach_eq_mapM, sameArgs,
              (ih head List.mem_cons_self).1 alikeHead]
            simp only [alikeHead.callHead]
      · intro alike
        rw [respell, respellEach_eq_map, compileDatum, compileDatum, compileData_eq_mapM,
          compileData_eq_mapM,
          mapM_map_eq fun item itemMem => (ih item itemMem).2 (each .data alike item itemMem)]
  | quote datum ih =>
      constructor
      · intro alike
        exact ih.2 (alike.of_subset (List.subset_cons_self _ _))
      · intro alike
        rw [respell, compileDatum, compileDatum, ih.2 (alike.of_subset (List.subset_cons_self _ _))]
  | unquote code ih =>
      refine ⟨fun _ => rfl, ?_⟩
      intro alike
      exact ih.1 (alike.of_subset (List.subset_cons_self _ _))
  | sequence forms ih =>
      refine ⟨?_, fun _ => rfl⟩
      intro alike
      have each : ∀ form ∈ forms, (form.respell change .code).compile right = form.compile left := by
        intro form formMem
        exact (ih form formMem).1 (alike.of_subset
          (List.Subset.trans (visits_subset formMem) (List.subset_cons_self _ _)))
      rw [respell, respellEach_eq_map, compile, compile, compileEach_eq_mapM, compileEach_eq_mapM,
        mapM_map_eq each]
  | branch test onTrue onFalse ihTest ihTrue ihFalse =>
      refine ⟨?_, fun _ => rfl⟩
      intro alike
      have sameTest := ihTest.1 (alike.of_subset fun visit visitMem => by simp [visits, visitMem])
      have sameTrue := ihTrue.1 (alike.of_subset fun visit visitMem => by simp [visits, visitMem])
      have sameFalse := ihFalse.1 (alike.of_subset fun visit visitMem => by simp [visits, visitMem])
      rw [respell, compile, compile, sameTest, sameTrue, sameFalse]

end Expr

end Compile

/-! ### Functions -/

/-- Parameter names do not matter. Let all parameters of a function be renamed at once, to distinct
names of which none is new and yet read as code in the body. Against every scope and store, the body
and the renamed body compile to one node or fail with one error; so whether the node is constant and
what it gives for given arguments, then and later, is the same too. Evaluating the function with its
new parameters gives the same function and leaves the same store, or fails with the same error, and
so it is for a function with a name. -/
theorem parameter_names_do_not_matter (params names : List String) (body : Expr)
    (distinct : params.Nodup) (distinctNames : names.Nodup)
    (sameLength : names.length = params.length)
    (fresh : ∀ name ∈ names, name ∉ params → ⟨.code, .symbol name⟩ ∉ body.visits .code) :
    let other := body.respell (renamed params names) .code
    (∀ self? scope store, other.compile ⟨names, self?, scope, store⟩ =
      body.compile ⟨params, self?, scope, store⟩) ∧
    (∀ depth scope, (Expr.lambda names other).eval depth scope =
      (Expr.lambda params body).eval depth scope) ∧
    ∀ depth scope name, (Expr.defun name names other).eval depth scope =
      (Expr.defun name params body).eval depth scope := by
  intro other
  have areNames := map_renamed distinct sameLength
  have compiled : ∀ self? scope store, other.compile ⟨names, self?, scope, store⟩ =
      body.compile ⟨params, self?, scope, store⟩ := by
    intro self? scope store
    apply (Expr.compile_respell body).1
    intro name nameMem
    refine CompileContext.headReference_change areNames distinctNames
      (fun _ => renamed_of_not_mem) ?_
    intro nameTaken
    by_contra notParam
    exact fresh name nameTaken notParam nameMem
  refine ⟨compiled, ?_, ?_⟩
  · intro depth scope
    funext store
    change Evaluation.makeLambda scope names other store =
      Evaluation.makeLambda scope params body store
    simp only [Evaluation.makeLambda, compiled, sameLength]
  · intro depth scope name
    funext store
    change Evaluation.makeDefun scope name names other store =
      Evaluation.makeDefun scope name params body store
    simp only [Evaluation.makeDefun, compiled, sameLength]

theorem second_parameter_may_be_named_as_quoted_data :
    let body : Expr := .list [.symbol "f", .symbol "y",
      .quote (.list [.symbol "x", .symbol "z", .unquote (.symbol "x")])]
    let other : Expr := .list [.symbol "f", .symbol "z",
      .quote (.list [.symbol "x", .symbol "z", .unquote (.symbol "y")])]
    ["x", "y"].Nodup ∧ ["y", "z"].Nodup ∧ ⟨.code, .symbol "z"⟩ ∉ body.visits .code ∧
    other.compile ⟨["y", "z"], some ⟨"f", 0⟩, ⟨0, []⟩, .empty⟩ =
      .ok (.call (.constant (.function (.placeholder ⟨"f", 0⟩))) [.argument 1,
        .list [.constant (.symbol "x"), .constant (.symbol "z"), .argument 0]]) ∧
    (Expr.defun "f" ["y", "z"] other).eval 0 ⟨0, []⟩ .empty =
      (Expr.defun "f" ["x", "y"] body).eval 0 ⟨0, []⟩ .empty := by
  intro body other
  have fresh : ⟨.code, .symbol "z"⟩ ∉ body.visits .code := by
    simp [body, Expr.visits, Expr.visitsOf]
  have same := parameter_names_do_not_matter ["x", "y"] ["y", "z"] body (by decide) (by decide) rfl
    (by simpa using fresh)
  refine ⟨by decide, by decide, fresh, ?_, ?_⟩
  · exact (same.1 _ _ _).trans rfl
  · exact congrFun (same.2.2 0 ⟨0, []⟩ "f") .empty

end ExactLisp
