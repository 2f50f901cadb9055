import ExactLisp.Proofs.AcceptedTexts
import ExactLisp.Proofs.WellFormed

/-!
# What parsing gives

A text is accepted if it splits into tokens that are the writing of forms, and the grammar takes
exactly the same texts (`parser_accepts_exactly_its_grammar`). What is returned are the expressions
of these forms, each in its place; inside a form the items are read in the same way, down to the
words, of which the languages of the literals decide what they become.
-/

namespace ExactLisp

section Readings

variable {source : List Char} {holds : List Form → Prop}

theorem exists_program_iff : (∃ forms, readForms .program source = .ok forms ∧ holds forms) ↔
    ∃ lexemes forms, Splits 0 source lexemes ∧ Form.WrittenEach forms lexemes ∧ holds forms := by
  simp only [readForms_eq_ok_iff]
  constructor
  · rintro ⟨forms, ⟨lexemes, split, written, _⟩, isSo⟩
    exact ⟨lexemes, forms, split, written, isSo⟩
  · rintro ⟨lexemes, forms, split, written, isSo⟩
    exact ⟨forms, ⟨lexemes, split, written, by simp⟩, isSo⟩

theorem exists_single_iff : (∃ forms, readForms .single source = .ok forms ∧ holds forms) ↔
    ∃ lexemes form, Splits 0 source lexemes ∧ Form.Written form lexemes ∧ holds [form] := by
  simp only [readForms_eq_ok_iff, true_implies]
  constructor
  · rintro ⟨_, ⟨lexemes, split, written, form, rfl⟩, isSo⟩
    exact ⟨lexemes, form, split, written.of_singleton, isSo⟩
  · rintro ⟨lexemes, form, split, written, isSo⟩
    exact ⟨[form], ⟨lexemes, split, .singleton written, form, rfl⟩, isSo⟩

end Readings

namespace Peg

/-- The grammar takes the texts that are read, and tells of the forms that are read. -/
theorem matches_some_iff (goal : Goal) {source : List Char} {taken : Match RuleName} :
    Matches grammar .free (.rule goal.rule) 0 source (some taken) ↔
      ∃ forms, readForms goal source = .ok forms ∧
        taken = ⟨source.length, [], [goal.tree source.length forms]⟩ := by
  rw [matches_whole_iff]
  cases readForms goal source <;> simp [Goal.outcome]

/-- The grammar refuses the texts that are not read. -/
theorem matches_none_iff (goal : Goal) {source : List Char} :
    Matches grammar .free (.rule goal.rule) 0 source none ↔
      ¬∃ forms, readForms goal source = .ok forms := by
  rw [matches_whole_iff]
  cases readForms goal source <;> simp [Goal.outcome]

end Peg

/-- Each of these forms is read as the expression in the same place. -/
def Form.ReadEach (read : Form → Except Fault Expr) (forms : List Form) (exprs : List Expr) :
    Prop :=
  List.Forall₂ (fun form expr => read form = .ok expr) forms exprs

theorem Form.toCodes_eq_ok_iff {forms : List Form} {exprs : List Expr} :
    toCodes forms = .ok exprs ↔ ReadEach toCode forms exprs := by
  rw [toCodes_eq_mapM]
  exact mapM_eq_ok_iff

theorem Form.toData_eq_ok_iff {forms : List Form} {exprs : List Expr} :
    toData forms = .ok exprs ↔ ReadEach toDatum forms exprs := by
  rw [toData_eq_mapM]
  exact mapM_eq_ok_iff

theorem parseText_eq_ok_iff {goal : Goal} {source : List Char} {exprs : List Expr} :
    parseText goal source = .ok exprs ↔
      ∃ forms, readForms goal source = .ok forms ∧ Form.ReadEach Form.toCode forms exprs := by
  rw [parseText]
  cases readForms goal source with
  | error misread => simp
  | ok forms =>
      simp only [Except.ok.injEq, exists_eq_left', ← Form.toCodes_eq_ok_iff]
      cases Form.toCodes forms <;> simp

theorem parseExpression_eq_ok_iff {source : String} {expr : Expr} :
    parseExpression source = .ok expr ↔
      ∃ lexemes form, Splits 0 source.toList lexemes ∧ Form.Written form lexemes ∧
        form.toCode = .ok expr := by
  have parsed : parseExpression source = .ok expr ↔ ∃ forms,
      readForms .single source.toList = .ok forms ∧
        ∃ exprs, Form.ReadEach Form.toCode forms exprs ∧ Expr.ofBody exprs = expr := by
    rw [parseExpression, map_eq_ok_iff]
    simp only [parseText_eq_ok_iff]
    constructor
    · rintro ⟨exprs, ⟨forms, isRead, each⟩, isExpr⟩
      exact ⟨forms, isRead, exprs, each, isExpr⟩
    · rintro ⟨forms, isRead, exprs, each, isExpr⟩
      exact ⟨exprs, ⟨forms, isRead, each⟩, isExpr⟩
  have one : ∀ form : Form, (∃ exprs, Form.ReadEach Form.toCode [form] exprs ∧
      Expr.ofBody exprs = expr) ↔ form.toCode = .ok expr := by
    intro form
    constructor
    · rintro ⟨_, _ | ⟨isCode, _ | _⟩, rfl⟩
      exact isCode
    · exact fun isCode => ⟨[expr], .cons isCode .nil, rfl⟩
  rw [parsed, exists_single_iff]
  simp only [one]

/-- What stands inside a form is read form by form: the items of a list that is data, the parts of
the special form or the call that a list is as code, and what is behind a mark. -/
theorem Form.reads_inside (extent : Extent) :
    (∀ items exprs, (Form.list extent items).toDatum = .ok (.list exprs) ↔
      ReadEach toDatum items exprs) ∧
    (∀ items expr, (Form.list extent items).toCode = .ok expr ↔
      ReadAs (keyword? items) items expr) ∧
    ∀ form : Form, ∀ expr,
      ((Form.marked extent .quote form).toCode = .ok (.quote expr) ↔ form.toDatum = .ok expr) ∧
      ((Form.marked extent .quote form).toDatum = .ok (.quote expr) ↔ form.toDatum = .ok expr) ∧
      ((Form.marked extent .unquote form).toCode = .ok (.unquote expr) ↔ form.toCode = .ok expr) ∧
      ((Form.marked extent .unquote form).toDatum = .ok (.unquote expr) ↔
        form.toCode = .ok expr) := by
  refine ⟨fun items exprs => ?_, fun items expr => toCode_list_eq_ok_iff, fun form expr => ?_⟩
  · simp [toDatum, map_eq_ok_iff, toData_eq_ok_iff]
  · simp [toCode, toDatum, map_eq_ok_iff]

/-- What a word becomes is decided by the languages of the literals. -/
theorem Expr.ofWord_classifies (extent : Extent) (run : List Char) :
    Word.Classifies run
      ((∃ value, Expr.ofWord extent run = .ok (.literal (.float value))) ∨
        ∃ literal problem, DecimalLiteral.parse? run = some literal ∧
          DecimalLiteral.maxExponent < literal.exponent.natAbs ∧
          Expr.ofWord extent run = .error ⟨.literal problem, extent⟩)
      (∃ value, Expr.ofWord extent run = .ok (.literal (.integer value)))
      (∃ value, Expr.ofWord extent run = .ok (.literal (.boolean value)))
      (Expr.ofWord extent run = .ok (.literal .nil))
      (Expr.ofWord extent run = .ok (.symbol (String.ofList run))) := by
  convert Word.ofRun_classifies run using 1
  all_goals
    rw [Expr.ofWord]
    cases isWord : Word.ofRun run with
    | decimal literal =>
        have parsed := Word.ofRun_eq_decimal_iff.mp isWord
        rcases literal.value_cases with ⟨value, isValue⟩ | ⟨outOfRange, problem, isProblem⟩
        · simp [isValue]
        · simp [isProblem, parsed, outOfRange]
    | _ => simp

/-- The rule that takes a word is decided by the languages of the literals. -/
theorem Word.rule_classifies (run : List Char) :
    Classifies run ((ofRun run).rule = .float) ((ofRun run).rule = .integer)
      ((ofRun run).rule = .boolean) ((ofRun run).rule = .nil) ((ofRun run).rule = .symbol) := by
  convert ofRun_classifies run using 1
  all_goals
    cases ofRun run <;> simp [rule]

/-- The reader accepts exactly its grammar. A text is refused as malformed unless it splits into
gaps and tokens that are the writing of forms, of one form where a single one is asked for. The
rules of the grammar take the same texts, with the tree of these forms and no other, and refuse all
others. The expressions that are returned are those of the forms, in the same order; inside a form,
items are read one by one.

A word becomes a float, an integer, a boolean, `nil` or a symbol as the languages of the literals
say, and the rule for it takes it; a decimal number whose exponent is too large is the only word
that denotes nothing. -/
theorem parser_accepts_exactly_its_grammar (source : String) :
    ((∀ position line expectation,
        parseForms source ≠ .error (.malformed position line expectation)) ↔
      ∃ lexemes forms, Splits 0 source.toList lexemes ∧ Form.WrittenEach forms lexemes) ∧
    ((∀ position line expectation,
        parseExpression source ≠ .error (.malformed position line expectation)) ↔
      ∃ lexemes form, Splits 0 source.toList lexemes ∧ Form.Written form lexemes) ∧
    (∀ taken, Peg.Matches Peg.grammar .free (.rule .program) 0 source.toList (some taken) ↔
      ∃ lexemes forms, Splits 0 source.toList lexemes ∧ Form.WrittenEach forms lexemes ∧
        taken = ⟨source.length, [], [Goal.tree .program source.length forms]⟩) ∧
    (∀ taken, Peg.Matches Peg.grammar .free (.rule .single) 0 source.toList (some taken) ↔
      ∃ lexemes form, Splits 0 source.toList lexemes ∧ Form.Written form lexemes ∧
        taken = ⟨source.length, [], [Goal.tree .single source.length [form]]⟩) ∧
    (Peg.Matches Peg.grammar .free (.rule .program) 0 source.toList none ↔
      ¬∃ lexemes forms, Splits 0 source.toList lexemes ∧ Form.WrittenEach forms lexemes) ∧
    (Peg.Matches Peg.grammar .free (.rule .single) 0 source.toList none ↔
      ¬∃ lexemes form, Splits 0 source.toList lexemes ∧ Form.Written form lexemes) ∧
    (∀ exprs, parseForms source = .ok exprs ↔
      ∃ lexemes forms, Splits 0 source.toList lexemes ∧ Form.WrittenEach forms lexemes ∧
        Form.ReadEach Form.toCode forms exprs) ∧
    (∀ expr, parseExpression source = .ok expr ↔
      ∃ lexemes form, Splits 0 source.toList lexemes ∧ Form.Written form lexemes ∧
        form.toCode = .ok expr) ∧
    (∀ extent,
      (∀ items exprs, (Form.list extent items).toDatum = .ok (.list exprs) ↔
        Form.ReadEach Form.toDatum items exprs) ∧
      (∀ items expr, (Form.list extent items).toCode = .ok expr ↔
        Form.ReadAs (Form.keyword? items) items expr) ∧
      ∀ form : Form, ∀ expr,
        ((Form.marked extent .quote form).toCode = .ok (.quote expr) ↔ form.toDatum = .ok expr) ∧
        ((Form.marked extent .quote form).toDatum = .ok (.quote expr) ↔ form.toDatum = .ok expr) ∧
        ((Form.marked extent .unquote form).toCode = .ok (.unquote expr) ↔
          form.toCode = .ok expr) ∧
        ((Form.marked extent .unquote form).toDatum = .ok (.unquote expr) ↔
          form.toCode = .ok expr)) ∧
    (∀ extent run,
      (Form.word extent run).toCode = Expr.ofWord extent run ∧
      (Form.word extent run).toDatum = Expr.ofWord extent run ∧
      Word.Classifies run
        ((∃ value, Expr.ofWord extent run = .ok (.literal (.float value))) ∨
          ∃ literal problem, DecimalLiteral.parse? run = some literal ∧
            DecimalLiteral.maxExponent < literal.exponent.natAbs ∧
            Expr.ofWord extent run = .error ⟨.literal problem, extent⟩)
        (∃ value, Expr.ofWord extent run = .ok (.literal (.integer value)))
        (∃ value, Expr.ofWord extent run = .ok (.literal (.boolean value)))
        (Expr.ofWord extent run = .ok (.literal .nil))
        (Expr.ofWord extent run = .ok (.symbol (String.ofList run)))) ∧
    ∀ run, Word.Classifies run ((Word.ofRun run).rule = .float) ((Word.ofRun run).rule = .integer)
      ((Word.ofRun run).rule = .boolean) ((Word.ofRun run).rule = .nil)
      ((Word.ofRun run).rule = .symbol) := by
  have isProgram : (∃ forms, readForms .program source.toList = .ok forms) ↔
      ∃ lexemes forms, Splits 0 source.toList lexemes ∧ Form.WrittenEach forms lexemes := by
    simpa using @exists_program_iff source.toList fun _ => True
  have isSingle : (∃ forms, readForms .single source.toList = .ok forms) ↔
      ∃ lexemes form, Splits 0 source.toList lexemes ∧ Form.Written form lexemes := by
    simpa using @exists_single_iff source.toList fun _ => True
  have lengthEq : source.toList.length = source.length := String.length_toList
  refine ⟨?_, ?_, fun taken => ?_, fun taken => ?_, ?_, ?_, fun exprs => ?_, fun expr => ?_,
    Form.reads_inside, fun extent run => ⟨rfl, rfl, Expr.ofWord_classifies extent run⟩,
    Word.rule_classifies⟩
  · rw [← isProgram]
    exact parseText_accepts_iff
  · rw [← isSingle]
    exact parseExpression_accepts_iff
  · rw [← lengthEq]
    exact (Peg.matches_some_iff .program).trans exists_program_iff
  · rw [← lengthEq]
    exact (Peg.matches_some_iff .single).trans exists_single_iff
  · rw [← isProgram]
    exact Peg.matches_none_iff .program
  · rw [← isSingle]
    exact Peg.matches_none_iff .single
  · exact parseText_eq_ok_iff.trans exists_program_iff
  · exact parseExpression_eq_ok_iff

end ExactLisp
