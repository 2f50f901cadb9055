import ExactLisp.Proofs.Grammar
import ExactLisp.Proofs.Induction

/-!
# Well-formed trees

The type of expressions allows trees that no text is read as: a special form inside quoted data, a
sequence among the arguments of a call, a parameter named twice. `Expr.WellFormed` says which trees
are trees of texts. It is relative to what a tree stands as, because a quote mark turns from code to
data and a comma turns back. Whatever is parsed is well-formed (`wellFormed_of_parseText`).
-/

namespace ExactLisp

/-- The names that make a list a special form. -/
def SpecialForm.heads : List String := ["quote", "if", "define", "set!", "lambda", "defun"]

/-- What an expression stands as. -/
inductive Role where
  | code
  | data
  /-- The whole body of a function. -/
  | body
  | program

/-- The names of parameters: distinct symbols. -/
def AreParameters (params : List String) : Prop :=
  params.Nodup ∧ ∀ name ∈ params, name.toList ∈ Word.symbols

/-- The trees that texts are read as. -/
inductive Expr.WellFormed : Role → Expr → Prop where
  | literal {role : Role} {value : Literal} : WellFormed role (.literal value)
  | symbol {role : Role} {name : String} (isName : name.toList ∈ Word.symbols) :
      WellFormed role (.symbol name)
  | quote {role : Role} {datum : Expr} (wellFormed : WellFormed .data datum) :
      WellFormed role (.quote datum)
  | unquote {role : Role} {code : Expr} (wellFormed : WellFormed .code code) :
      WellFormed role (.unquote code)
  | datum {items : List Expr} (each : ∀ item ∈ items, WellFormed .data item) :
      WellFormed .data (.list items)
  | call {items : List Expr} (each : ∀ item ∈ items, WellFormed .code item)
      (ordinary : ∀ name, items.head? = some (.symbol name) → name ∉ SpecialForm.heads) :
      WellFormed .code (.list items)
  | branch {test onTrue onFalse : Expr} (wellFormedTest : WellFormed .code test)
      (wellFormedTrue : WellFormed .code onTrue) (wellFormedFalse : WellFormed .code onFalse) :
      WellFormed .code (.branch test onTrue onFalse)
  | define {name : String} {value : Expr} (isName : name.toList ∈ Word.symbols)
      (wellFormed : WellFormed .code value) : WellFormed .code (.define name value)
  | set {name : String} {value : Expr} (isName : name.toList ∈ Word.symbols)
      (wellFormed : WellFormed .code value) : WellFormed .code (.set name value)
  | lambda {params : List String} {body : Expr} (areParameters : AreParameters params)
      (wellFormed : WellFormed .body body) : WellFormed .code (.lambda params body)
  | defun {name : String} {params : List String} {body : Expr}
      (isName : name.toList ∈ Word.symbols) (areParameters : AreParameters params)
      (wellFormed : WellFormed .body body) : WellFormed .code (.defun name params body)
  | single {form : Expr} (wellFormed : WellFormed .code form) : WellFormed .body form
  | several {forms : List Expr} (twoOrMore : 2 ≤ forms.length)
      (each : ∀ form ∈ forms, WellFormed .code form) : WellFormed .body (.sequence forms)
  | program {forms : List Expr} (each : ∀ form ∈ forms, WellFormed .code form) :
      WellFormed .program (.sequence forms)

theorem Expr.WellFormed.ofBody {forms : List Expr} (nonempty : forms ≠ [])
    (each : ∀ form ∈ forms, form.WellFormed .code) : (Expr.ofBody forms).WellFormed .body := by
  match forms, nonempty with
  | [form], _ => exact .single (each form List.mem_cons_self)
  | first :: second :: others, _ => exact .several (by simp) each

/-! ### What forms are read as -/

namespace Form

/-- Every word in a form is one word character or more. -/
inductive Spelled : Form → Prop where
  | word {extent : Extent} {run : List Char} (nonempty : run ≠ [])
      (chars : ∀ c ∈ run, isWordChar c) : Spelled (.word extent run)
  | text {extent : Extent} {raw : List Char} : Spelled (.text extent raw)
  | marked {extent : Extent} {mark : Mark} {form : Form} (spelled : Spelled form) :
      Spelled (.marked extent mark form)
  | list {extent : Extent} {items : List Form} (each : ∀ item ∈ items, Spelled item) :
      Spelled (.list extent items)

theorem Written.spelled {form : Form} {lexemes : List Lexeme} (written : form.Written lexemes)
    (spelled : ∀ lexeme ∈ lexemes, ∃ spelling, lexeme.token.Spelled spelling) : form.Spelled := by
  induction written with
  | word =>
      rcases spelled _ List.mem_cons_self with ⟨spelling, isWord⟩
      cases isWord with
      | word nonempty chars => exact .word nonempty chars
  | text => exact .text
  | marked _ ih =>
      rw [List.forall_mem_cons] at spelled
      exact .marked (ih spelled.2)
  | @list first last parts _ ih =>
      refine .list ?_
      intro item itemMem
      rcases List.mem_map.mp itemMem with ⟨part, partMem, rfl⟩
      apply ih part partMem
      intro lexeme lexemeMem
      apply spelled lexeme
      simp only [List.mem_cons, List.mem_append, List.mem_flatMap]
      exact Or.inr (Or.inl ⟨part, partMem, lexemeMem⟩)

/-- What the items of a list are read as where the list stands as code, given the special form that
its head names. -/
inductive ReadAs : Option SpecialForm → List Form → Expr → Prop where
  | call {items : List Form} {exprs : List Expr} (each : items.mapM toCode = .ok exprs) :
      ReadAs none items (.list exprs)
  | quote {head form : Form} {datum : Expr} (isDatum : form.toDatum = .ok datum) :
      ReadAs (some .quote) [head, form] (.quote datum)
  | branch {head first second third : Form} {test onTrue onFalse : Expr}
      (isTest : first.toCode = .ok test) (isTrue : second.toCode = .ok onTrue)
      (isFalse : third.toCode = .ok onFalse) :
      ReadAs (some .branch) [head, first, second, third] (.branch test onTrue onFalse)
  | define {head target form : Form} {name : String} {value : Expr}
      (isName : target.symbolName = .ok name) (isValue : form.toCode = .ok value) :
      ReadAs (some .define) [head, target, form] (.define name value)
  | set {head target form : Form} {name : String} {value : Expr}
      (isName : target.symbolName = .ok name) (isValue : form.toCode = .ok value) :
      ReadAs (some .set) [head, target, form] (.set name value)
  | lambda {head list form : Form} {forms : List Form} {params : List String} {exprs : List Expr}
      (areParameters : list.parameters = .ok params)
      (each : (form :: forms).mapM toCode = .ok exprs) :
      ReadAs (some .lambda) (head :: list :: form :: forms) (.lambda params (.ofBody exprs))
  | defun {head target list form : Form} {forms : List Form} {name : String}
      {params : List String} {exprs : List Expr} (isName : target.symbolName = .ok name)
      (areParameters : list.parameters = .ok params)
      (each : (form :: forms).mapM toCode = .ok exprs) :
      ReadAs (some .defun) (head :: target :: list :: form :: forms)
        (.defun name params (.ofBody exprs))

theorem ReadAs.of_toCode {extent : Extent} {items : List Form} {expr : Expr}
    (isCode : (Form.list extent items).toCode = .ok expr) :
    ReadAs (Form.keyword? items) items expr := by
  rw [toCode.eq_def] at isCode
  simp only [toCodes_eq_mapM] at isCode
  split at isCode
  case h_1 headed =>
    rcases map_eq_ok_iff.mp isCode with ⟨datum, isDatum, rfl⟩
    rw [headed]
    exact .quote isDatum
  case h_2 headed =>
    rcases bind_eq_ok_iff.mp isCode with ⟨test, isTest, isCode⟩
    rcases bind_eq_ok_iff.mp isCode with ⟨onTrue, isTrue, isCode⟩
    rcases bind_eq_ok_iff.mp isCode with ⟨onFalse, isFalse, isCode⟩
    cases isCode
    rw [headed]
    exact .branch isTest isTrue isFalse
  case h_3 headed =>
    rcases bind_eq_ok_iff.mp isCode with ⟨name, isName, isCode⟩
    rcases bind_eq_ok_iff.mp isCode with ⟨value, isValue, isCode⟩
    cases isCode
    rw [headed]
    exact .define isName isValue
  case h_4 headed =>
    rcases bind_eq_ok_iff.mp isCode with ⟨name, isName, isCode⟩
    rcases bind_eq_ok_iff.mp isCode with ⟨value, isValue, isCode⟩
    cases isCode
    rw [headed]
    exact .set isName isValue
  case h_5 headed =>
    rcases bind_eq_ok_iff.mp isCode with ⟨params, areParameters, isCode⟩
    rcases bind_eq_ok_iff.mp isCode with ⟨first, isFirst, isCode⟩
    rcases bind_eq_ok_iff.mp isCode with ⟨others, areOthers, isCode⟩
    cases isCode
    rw [headed]
    exact .lambda areParameters (by rw [List.mapM_cons, isFirst, areOthers]; rfl)
  case h_6 headed =>
    rcases bind_eq_ok_iff.mp isCode with ⟨name, isName, isCode⟩
    rcases bind_eq_ok_iff.mp isCode with ⟨params, areParameters, isCode⟩
    rcases bind_eq_ok_iff.mp isCode with ⟨first, isFirst, isCode⟩
    rcases bind_eq_ok_iff.mp isCode with ⟨others, areOthers, isCode⟩
    cases isCode
    rw [headed]
    exact .defun isName areParameters (by rw [List.mapM_cons, isFirst, areOthers]; rfl)
  case h_7 => cases isCode
  case h_8 headed =>
    rcases map_eq_ok_iff.mp isCode with ⟨exprs, each, rfl⟩
    rw [headed]
    exact .call each

theorem toCode_list_eq_ok_iff {extent : Extent} {items : List Form} {expr : Expr} :
    (Form.list extent items).toCode = .ok expr ↔ ReadAs (Form.keyword? items) items expr := by
  refine ⟨ReadAs.of_toCode, fun isRead => ?_⟩
  rw [toCode.eq_def]
  simp only [toCodes_eq_mapM]
  generalize Form.keyword? items = keyword at isRead
  cases isRead with
  | call each => simp [each]
  | quote isDatum => simp [isDatum]
  | branch isTest isTrue isFalse => simp [isTest, isTrue, isFalse, bind_eq_ok_iff]
  | define isName isValue => simp [isName, isValue, bind_eq_ok_iff]
  | set isName isValue => simp [isName, isValue, bind_eq_ok_iff]
  | lambda areParameters each =>
      simp only [List.mapM_cons, bind_eq_ok_iff] at each
      rcases each with ⟨first, isFirst, others, areOthers, isBody⟩
      cases isBody
      simp [areParameters, isFirst, areOthers, bind_eq_ok_iff]
  | defun isName areParameters each =>
      simp only [List.mapM_cons, bind_eq_ok_iff] at each
      rcases each with ⟨first, isFirst, others, areOthers, isBody⟩
      cases isBody
      simp [isName, areParameters, isFirst, areOthers, bind_eq_ok_iff]

/-! ### What is read is well-formed -/

theorem mem_symbols_of_symbolName {form : Form} {name : String} (spelled : form.Spelled)
    (isName : form.symbolName = .ok name) : name.toList ∈ Word.symbols := by
  cases spelled with
  | @word extent run nonempty chars =>
      simp only [symbolName] at isName
      split at isName
      · rename_i isSymbol
        cases isName
        rw [String.toList_ofList, Word.mem_symbols_iff]
        exact ⟨nonempty, chars, isSymbol⟩
      · cases isName
  | _ => cases isName

theorem areParameters_of_parameterNames {earlier params : List String} {items : List Form}
    (each : ∀ item ∈ items, item.Spelled) (areEarlier : AreParameters earlier)
    (areNames : parameterNames earlier items = .ok params) : AreParameters params := by
  induction items generalizing earlier with
  | nil =>
      cases areNames
      rcases areEarlier with ⟨distinct, areSymbols⟩
      refine ⟨List.nodup_reverse.mpr distinct, ?_⟩
      intro name nameMem
      exact areSymbols name (List.mem_reverse.mp nameMem)
  | cons item items ih =>
      rw [List.forall_mem_cons] at each
      rcases bind_eq_ok_iff.mp areNames with ⟨name, isName, areNames⟩
      split at areNames
      · cases areNames
      · rename_i isNew
        refine ih each.2 ⟨List.nodup_cons.mpr ⟨isNew, areEarlier.1⟩, ?_⟩ areNames
        rw [List.forall_mem_cons]
        exact ⟨mem_symbols_of_symbolName each.1 isName, areEarlier.2⟩

theorem areParameters_of_parameters {form : Form} {params : List String} (spelled : form.Spelled)
    (areNames : form.parameters = .ok params) : AreParameters params := by
  have noParameters : AreParameters [] := ⟨List.nodup_nil, by simp⟩
  cases spelled with
  | word nonempty chars =>
      simp only [parameters] at areNames
      split at areNames
      · cases areNames
        exact noParameters
      · cases areNames
  | list each => exact areParameters_of_parameterNames each noParameters areNames
  | _ => cases areNames

/-- Only a word is read as a symbol. -/
theorem eq_word_of_toCode {form : Form} {name : String}
    (isCode : form.toCode = .ok (.symbol name)) : ∃ extent, form = .word extent name.toList := by
  cases form with
  | word extent run =>
      rw [toCode, Expr.ofWord] at isCode
      split at isCode
      · split at isCode <;> cases isCode
      · cases isCode
      · cases isCode
      · cases isCode
      · cases isCode
        exact ⟨extent, by rw [String.toList_ofList]⟩
  | text extent raw =>
      rw [toCode, Expr.ofText] at isCode
      split at isCode <;> cases isCode
  | marked extent mark form =>
      cases mark with
      | quote =>
          rcases map_eq_ok_iff.mp isCode with ⟨datum, _, isSymbol⟩
          cases isSymbol
      | unquote =>
          rcases map_eq_ok_iff.mp isCode with ⟨code, _, isSymbol⟩
          cases isSymbol
  | list extent items =>
      have isRead := ReadAs.of_toCode isCode
      generalize Form.keyword? items = keyword at isRead
      cases isRead

theorem not_mem_heads_of_keyword? {name : String}
    (ordinary : ExactLisp.keyword? name.toList = none) : name ∉ SpecialForm.heads := by
  simp only [ExactLisp.keyword?, String.ofList_toList] at ordinary
  split_ifs at ordinary
  simp_all [SpecialForm.heads]

/-- A list that is read as a call is not headed by the name of a special form. -/
theorem ordinary_of_mapM {items : List Form} {exprs : List Expr} {name : String}
    (notKeyword : Form.keyword? items = none) (each : items.mapM toCode = .ok exprs)
    (isHead : exprs.head? = some (.symbol name)) : name ∉ SpecialForm.heads := by
  cases items with
  | nil =>
      cases each
      cases isHead
  | cons item items =>
      rw [List.mapM_cons] at each
      rcases bind_eq_ok_iff.mp each with ⟨first, isFirst, each⟩
      rcases bind_eq_ok_iff.mp each with ⟨others, _, each⟩
      cases each
      rw [List.head?_cons, Option.some.injEq] at isHead
      subst isHead
      rcases eq_word_of_toCode isFirst with ⟨extent, rfl⟩
      exact not_mem_heads_of_keyword? notKeyword

end Form

theorem Expr.wellFormed_of_ofWord {role : Role} {extent : Extent} {run : List Char} {expr : Expr}
    (nonempty : run ≠ []) (chars : ∀ c ∈ run, isWordChar c)
    (isWord : Expr.ofWord extent run = .ok expr) : expr.WellFormed role := by
  rw [ofWord] at isWord
  split at isWord
  · split at isWord
    · cases isWord
      exact .literal
    · cases isWord
  · cases isWord
    exact .literal
  · cases isWord
    exact .literal
  · cases isWord
    exact .literal
  · rename_i isSymbol
    cases isWord
    refine .symbol ?_
    rw [String.toList_ofList, Word.mem_symbols_iff]
    exact ⟨nonempty, chars, isSymbol⟩

theorem Expr.wellFormed_of_ofText {role : Role} {extent : Extent} {raw : List Char} {expr : Expr}
    (isText : Expr.ofText extent raw = .ok expr) : expr.WellFormed role := by
  rw [ofText] at isText
  split at isText
  · cases isText
    exact .literal
  · cases isText

theorem Form.wellFormed_body {form : Form} {forms : List Form} {exprs : List Expr}
    (areCode : (form :: forms).mapM toCode = .ok exprs)
    (each : ∀ item ∈ form :: forms, ∀ expr, item.toCode = .ok expr → expr.WellFormed .code) :
    (Expr.ofBody exprs).WellFormed .body := by
  apply Expr.WellFormed.ofBody
  · rintro rfl
    rw [List.mapM_cons] at areCode
    rcases bind_eq_ok_iff.mp areCode with ⟨first, _, areCode⟩
    rcases bind_eq_ok_iff.mp areCode with ⟨others, _, areCode⟩
    cases areCode
  · exact forall_of_mapM_eq_ok areCode each

theorem Form.Spelled.wellFormed {form : Form} (spelled : form.Spelled) :
    (∀ expr, form.toCode = .ok expr → expr.WellFormed .code) ∧
      ∀ expr, form.toDatum = .ok expr → expr.WellFormed .data := by
  induction spelled with
  | word nonempty chars =>
      exact ⟨fun _ => Expr.wellFormed_of_ofWord nonempty chars,
        fun _ => Expr.wellFormed_of_ofWord nonempty chars⟩
  | text => exact ⟨fun _ => Expr.wellFormed_of_ofText, fun _ => Expr.wellFormed_of_ofText⟩
  | @marked extent mark form _ ih =>
      cases mark with
      | quote =>
          have quoted : ∀ role expr, Expr.quote <$> form.toDatum = .ok expr →
              expr.WellFormed role := by
            intro role expr isQuote
            rcases map_eq_ok_iff.mp isQuote with ⟨datum, isDatum, rfl⟩
            exact .quote (ih.2 datum isDatum)
          exact ⟨quoted .code, quoted .data⟩
      | unquote =>
          have unquoted : ∀ role expr, Expr.unquote <$> form.toCode = .ok expr →
              expr.WellFormed role := by
            intro role expr isUnquote
            rcases map_eq_ok_iff.mp isUnquote with ⟨code, isCode, rfl⟩
            exact .unquote (ih.1 code isCode)
          exact ⟨unquoted .code, unquoted .data⟩
  | @list extent items each ih =>
      constructor
      · intro expr isCode
        -- one case for each special form that the head can name, and one for calls
        have isRead := Form.ReadAs.of_toCode isCode
        generalize headed : Form.keyword? items = keyword at isRead
        cases isRead with
        | call areCode =>
            refine .call (forall_of_mapM_eq_ok areCode ?_) ?_
            · intro item itemMem
              exact (ih item itemMem).1
            · intro name isHead
              exact Form.ordinary_of_mapM headed areCode isHead
        | quote isDatum =>
            simp only [List.forall_mem_cons] at ih
            exact .quote (ih.2.1.2 _ isDatum)
        | branch isTest isTrue isFalse =>
            simp only [List.forall_mem_cons] at ih
            exact .branch (ih.2.1.1 _ isTest) (ih.2.2.1.1 _ isTrue) (ih.2.2.2.1.1 _ isFalse)
        | define isName isValue =>
            simp only [List.forall_mem_cons] at each ih
            exact .define (Form.mem_symbols_of_symbolName each.2.1 isName) (ih.2.2.1.1 _ isValue)
        | set isName isValue =>
            simp only [List.forall_mem_cons] at each ih
            exact .set (Form.mem_symbols_of_symbolName each.2.1 isName) (ih.2.2.1.1 _ isValue)
        | lambda areParameters areCode =>
            rw [List.forall_mem_cons, List.forall_mem_cons] at each ih
            exact .lambda (Form.areParameters_of_parameters each.2.1 areParameters)
              (Form.wellFormed_body areCode fun form formMem => (ih.2.2 form formMem).1)
        | defun isName areParameters areCode =>
            rw [List.forall_mem_cons, List.forall_mem_cons, List.forall_mem_cons] at each ih
            exact .defun (Form.mem_symbols_of_symbolName each.2.1 isName)
              (Form.areParameters_of_parameters each.2.2.1 areParameters)
              (Form.wellFormed_body areCode fun form formMem => (ih.2.2.2 form formMem).1)
      · intro expr isDatum
        rw [Form.toDatum, Form.toData_eq_mapM] at isDatum
        rcases map_eq_ok_iff.mp isDatum with ⟨exprs, areData, rfl⟩
        refine .datum (forall_of_mapM_eq_ok areData ?_)
        intro item itemMem
        exact (ih item itemMem).2

/-- Whatever is parsed is well-formed code, of one form where a single one is asked for. -/
theorem wellFormed_of_parseText {goal : Goal} {source : List Char} {exprs : List Expr}
    (parsed : parseText goal source = .ok exprs) :
    (∀ expr ∈ exprs, expr.WellFormed .code) ∧ (goal = .single → ∃ expr, exprs = [expr]) := by
  rw [parseText] at parsed
  split at parsed
  · cases parsed
  · rename_i forms areRead
    split at parsed
    · cases parsed
    · rename_i read areCode
      cases parsed
      rw [Form.toCodes_eq_mapM] at areCode
      rcases readForms_eq_ok_iff.mp areRead with ⟨lexemes, split, ⟨parts, each, rfl, rfl⟩, single⟩
      constructor
      · refine forall_of_mapM_eq_ok areCode ?_
        intro form formMem
        rcases List.mem_map.mp formMem with ⟨part, partMem, rfl⟩
        have spelled : part.1.Spelled := by
          apply (each part partMem).spelled
          intro lexeme lexemeMem
          exact split.spelled lexeme (List.mem_flatMap.mpr ⟨part, partMem, lexemeMem⟩)
        exact spelled.wellFormed.1
      · intro isSingle
        rcases single isSingle with ⟨form, isForm⟩
        rw [isForm, List.mapM_cons] at areCode
        rcases bind_eq_ok_iff.mp areCode with ⟨expr, _, areCode⟩
        cases areCode
        exact ⟨expr, rfl⟩

theorem wellFormed_of_parseForms {source : String} {forms : List Expr}
    (parsed : parseForms source = .ok forms) : ∀ form ∈ forms, form.WellFormed .code :=
  (wellFormed_of_parseText parsed).1

theorem wellFormed_of_parseProgram {source : String} {program : Expr}
    (parsed : parseProgram source = .ok program) : program.WellFormed .program := by
  rcases map_eq_ok_iff.mp parsed with ⟨forms, areForms, rfl⟩
  exact .program (wellFormed_of_parseForms areForms)

theorem wellFormed_of_parseExpression {source : String} {expr : Expr}
    (parsed : parseExpression source = .ok expr) : expr.WellFormed .code := by
  rcases map_eq_ok_iff.mp parsed with ⟨exprs, isText, rfl⟩
  rcases wellFormed_of_parseText isText with ⟨each, single⟩
  rcases single rfl with ⟨expr, rfl⟩
  exact each expr List.mem_cons_self

end ExactLisp
