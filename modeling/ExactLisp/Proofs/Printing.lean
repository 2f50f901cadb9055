import ExactLisp.Proofs.Decimals
import ExactLisp.Proofs.Grammar
import ExactLisp.Proofs.Induction

/-!
# Reading what was printed

The text of a value without functions is read back, as quoted data, as that value, with every float
rounded to the digits that were shown. `ReadsAs` says of a text what reading makes of it wherever it
stands: the texts of values have it by induction over the value, each list from its items.
-/

namespace ExactLisp

/-! ### Values -/

/-- The values that have a readable text: no functions, and symbols by their names only. -/
inductive Value.Readable : Value → Prop where
  | nil : Readable .nil
  | boolean (value : Bool) : Readable (.boolean value)
  | integer (value : Int) : Readable (.integer value)
  | float (value : Rat) : Readable (.float value)
  | string (value : String) : Readable (.string value)
  | symbol {name : String} (isName : name.toList ∈ Word.symbols) : Readable (.symbol name)
  | list {items : List Value} (each : ∀ item ∈ items, Readable item) : Readable (.list items)

namespace Value

mutual

/-- A value with every float in it rounded. -/
def rounded (digits : Nat) : Value → Value
  | float value => float (roundHalfAway digits value)
  | list items => list (roundedEach digits items)
  | nil => nil
  | boolean value => boolean value
  | integer value => integer value
  | string value => string value
  | symbol name => symbol name
  | function callee => function callee

def roundedEach (digits : Nat) : List Value → List Value
  | [] => []
  | value :: values => value.rounded digits :: roundedEach digits values

end

mutual

/-- The floats in a value, at any depth. -/
def floats : Value → List Rat
  | float value => [value]
  | list items => floatsOf items
  | _ => []

def floatsOf : List Value → List Rat
  | [] => []
  | value :: values => value.floats ++ floatsOf values

end

theorem roundedEach_eq_map (digits : Nat) (values : List Value) :
    roundedEach digits values = values.map (rounded digits) := by
  induction values with
  | nil => rfl
  | cons value values ih => rw [roundedEach, ih, List.map_cons]

theorem mem_floatsOf {number : Rat} {values : List Value} :
    number ∈ floatsOf values ↔ ∃ value ∈ values, number ∈ value.floats := by
  induction values with
  | nil => simp [floatsOf]
  | cons value values ih => simp [floatsOf, ih]

theorem rounded_eq_of_terminates {digits : Nat} {value : Value}
    (terminates : ∀ number ∈ value.floats, Terminates digits number) :
    value.rounded digits = value := by
  induction value with
  | float value =>
      rw [rounded, roundHalfAway_eq_of_terminates (terminates value (by simp [floats]))]
  | list items ih =>
      have each : ∀ item ∈ items, item.rounded digits = item := by
        intro item itemMem
        apply ih item itemMem
        intro number numberMem
        exact terminates number (mem_floatsOf.mpr ⟨item, itemMem, numberMem⟩)
      rw [rounded, roundedEach_eq_map, List.map_congr_left each, List.map_id']
  | _ => rfl

theorem text_rounded (store : Store) (digits : Nat) (value : Value) :
    (value.rounded digits).text store digits = value.text store digits := by
  induction value with
  | float value => exact decimalText_roundHalfAway digits value
  | list items ih =>
      have tailEq : ∀ values ⊆ items,
          tailText store digits (roundedEach digits values) = tailText store digits values := by
        intro values isPart
        induction values with
        | nil => rfl
        | cons value values ihValues =>
            rw [List.cons_subset] at isPart
            rw [roundedEach, tailText, tailText, ih value isPart.1, ihValues isPart.2]
      cases items with
      | nil => rfl
      | cons head tail =>
          rw [rounded, roundedEach, text, text, ih head List.mem_cons_self,
            tailEq tail (List.subset_cons_self head tail)]
  | _ => rfl

end Value

/-! ### Data -/

/-- As data, an expression stands for a value. -/
def Expr.Denotes (expr : Expr) (value : Value) : Prop :=
  ∀ invoke scope, expr.evalDatum invoke scope = pure value

theorem Expr.Denotes.list {exprs : List Expr} {values : List Value}
    (each : List.Forall₂ Denotes exprs values) : (Expr.list exprs).Denotes (.list values) := by
  intro invoke scope
  have dataEq : Expr.evalData invoke scope exprs = pure values := by
    induction each with
    | nil => rfl
    | cons denotes _ ih => rw [evalData, denotes, pure_bind, ih, pure_bind]
  rw [evalDatum, dataEq, pure_bind]

/-! ### Texts -/

/-- Before anything but a further word character, a text is the writing of one form, and this is
data that stands for a value. -/
def ReadsAs (text : List Char) (value : Value) : Prop :=
  ∀ offset rest lexemes, (∀ c ∈ rest.head?, isWordChar c = false) →
    Splits (offset + text.length) rest lexemes →
    ∃ (own : List Lexeme) (form : Form) (expr : Expr),
      Splits offset (text ++ rest) (own ++ lexemes) ∧ form.Written own ∧
        form.toDatum = .ok expr ∧ expr.Denotes value

/-- A text is the writing of forms and of the parenthesis that closes their list, and the forms are
data that stand for values. -/
def ReadsAsItems (text : List Char) (values : List Value) : Prop :=
  ∀ offset rest lexemes, Splits (offset + text.length) rest lexemes →
    ∃ own last forms exprs, Splits offset (text ++ rest) (own ++ ⟨.closing, last⟩ :: lexemes) ∧
      Form.WrittenEach forms own ∧ forms.mapM Form.toDatum = .ok exprs ∧
      List.Forall₂ Expr.Denotes exprs values

theorem ReadsAs.word {run : List Char} {expr : Expr} {value : Value}
    (spelled : run ≠ [] ∧ ∀ c ∈ run, isWordChar c)
    (isExpr : ∀ extent, Expr.ofWord extent run = .ok expr) (denotes : expr.Denotes value) :
    ReadsAs run value := by
  intro offset rest lexemes ended split
  exact ⟨_, _, expr, .token (.word spelled.1 spelled.2) (fun _ _ => ended) split, .word, isExpr _,
    denotes⟩

theorem ReadsAsItems.closing : ReadsAsItems [')'] [] := by
  intro offset rest lexemes split
  exact ⟨[], _, [], [], .token .closing (by simp) split, .nil, rfl, .nil⟩

theorem ReadsAsItems.blank {text : List Char} {values : List Value}
    (reads : ReadsAsItems text values) : ReadsAsItems (' ' :: text) values := by
  intro offset rest lexemes split
  rw [List.length_cons, Nat.add_comm text.length 1, ← Nat.add_assoc] at split
  rcases reads _ rest lexemes split with
    ⟨own, last, forms, exprs, splitText, written, areData, each⟩
  exact ⟨own, last, forms, exprs, .blank rfl splitText, written, areData, each⟩

theorem ReadsAsItems.cons {first others : List Char} {value : Value} {values : List Value}
    (readsFirst : ReadsAs first value) (reads : ReadsAsItems others values)
    (nonempty : others ≠ []) (ended : ∀ c ∈ others.head?, isWordChar c = false) :
    ReadsAsItems (first ++ others) (value :: values) := by
  intro offset rest lexemes split
  rw [List.length_append, ← Nat.add_assoc] at split
  rcases reads _ rest lexemes split with
    ⟨own, last, forms, exprs, splitText, written, areData, each⟩
  -- the first item may be a word, which what follows must not continue
  have endedRest : ∀ c ∈ (others ++ rest).head?, isWordChar c = false := by
    rwa [List.head?_append_of_ne_nil _ nonempty]
  rcases readsFirst offset _ _ endedRest splitText with
    ⟨ownFirst, form, expr, splitFirst, writtenFirst, isDatum, denotes⟩
  refine ⟨ownFirst ++ own, last, form :: forms, expr :: exprs, ?_, ?_, ?_, .cons denotes each⟩
  · rw [List.append_assoc, List.append_assoc]
    exact splitFirst
  · exact Form.WrittenEach.append (.singleton writtenFirst) written
  · rw [List.mapM_cons, isDatum, areData]
    rfl

theorem ReadsAs.list {text : List Char} {values : List Value} (reads : ReadsAsItems text values) :
    ReadsAs ('(' :: text) (.list values) := by
  intro offset rest lexemes _ split
  rw [List.length_cons, Nat.add_comm text.length 1, ← Nat.add_assoc] at split
  rcases reads _ rest lexemes split with
    ⟨own, last, forms, exprs, splitText, written, areData, each⟩
  have splitList : Splits offset (['('] ++ (text ++ rest))
      (⟨.opening, ⟨offset, offset + 1⟩⟩ :: (own ++ ⟨.closing, last⟩ :: lexemes)) :=
    .token .opening (by simp) splitText
  refine ⟨⟨.opening, ⟨offset, offset + 1⟩⟩ :: (own ++ [⟨.closing, last⟩]), _, .list exprs, ?_,
    .list_of_each written, ?_, .list each⟩
  · simpa using splitList
  · rw [Form.toDatum, Form.toData_eq_mapM, areData]
    rfl

/-! ### Strings -/

/-- A character between quotation marks stands for itself, or behind a backslash stands what it is
escaped as. -/
theorem escapeChar_cases (c : Char) :
    (∃ mark, escapeChar c = ['\\', mark] ∧ unescape? mark = some c) ∨
      escapeChar c = [c] ∧ c ≠ '"' ∧ c ≠ '\\' := by
  rw [escapeChar]
  split_ifs with isMark isEscape isFeed isTab
  · exact Or.inl ⟨_, rfl, by rw [isMark]; rfl⟩
  · exact Or.inl ⟨_, rfl, by rw [isEscape]; rfl⟩
  · exact Or.inl ⟨_, rfl, by rw [isFeed]; rfl⟩
  · exact Or.inl ⟨_, rfl, by rw [isTab]; rfl⟩
  · exact Or.inr ⟨rfl, isMark, isEscape⟩

theorem textBody_escapeText (text : List Char) : TextBody (escapeText text) := by
  induction text with
  | nil => exact .nil
  | cons c text ih =>
      rw [escapeText, List.flatMap_cons]
      rcases escapeChar_cases c with ⟨mark, escaped, _⟩ | ⟨escaped, notMark, notEscape⟩
      · rw [escaped]
        exact .escape ih
      · rw [escaped]
        exact .plain notMark notEscape ih

theorem unescapeText_escapeText (text : List Char) : unescapeText (escapeText text) = .ok text := by
  induction text with
  | nil => rfl
  | cons c text ih =>
      rw [escapeText, List.flatMap_cons]
      rcases escapeChar_cases c with ⟨mark, escaped, meant⟩ | ⟨escaped, _, notEscape⟩
      · rw [escaped, List.cons_append, List.singleton_append, unescapeText, meant]
        simp only
        rw [← escapeText, ih]
        rfl
      · rw [escaped, List.singleton_append, unescapeText, ← escapeText, ih]
        · rfl
        · exact fun isEscape _ => notEscape isEscape
        · exact fun _ _ isEscape _ => notEscape isEscape

theorem ReadsAs.string (text : String) : ReadsAs (quotedText text.toList) (.string text) := by
  intro offset rest lexemes _ split
  have isText : ∀ extent, Expr.ofText extent (escapeText text.toList) =
      .ok (.literal (.string text)) := by
    intro extent
    rw [Expr.ofText, unescapeText_escapeText]
    simp only [String.ofList_toList]
  exact ⟨[_], .text _ _, _, .token (.text (textBody_escapeText _)) (by simp) split, .text, isText _,
    fun _ _ => rfl⟩

/-! ### Values -/

theorem ReadsAs.integer (value : Int) : ReadsAs (integerText value) (.integer value) := by
  rcases IntegerLiteral.parse?_integerText value with ⟨literal, parsed, isValue⟩
  have isInteger := IntegerLiteral.parse?_isSome_iff.mp (Option.isSome_of_eq_some parsed)
  have isExpr : ∀ extent, Expr.ofWord extent (integerText value) =
      .ok (.literal (.integer value)) := by
    intro extent
    rw [Expr.ofWord, Word.ofRun_eq_integer_iff.mpr parsed]
    simp only [isValue]
  exact .word (Word.spelled_of_integer isInteger) isExpr fun _ _ => rfl

theorem ReadsAs.float (value : Rat) (digits : Nat) :
    ReadsAs (decimalText value digits) (.float (roundHalfAway digits value)) := by
  rcases DecimalLiteral.parse?_decimalText value digits with ⟨literal, parsed, isValue⟩
  have isDecimal := DecimalLiteral.parse?_isSome_iff.mp (Option.isSome_of_eq_some parsed)
  have isExpr : ∀ extent, Expr.ofWord extent (decimalText value digits) =
      .ok (.literal (.float (roundHalfAway digits value))) := by
    intro extent
    rw [Expr.ofWord, Word.ofRun_eq_decimal_iff.mpr parsed]
    simp only [isValue]
  exact .word (Word.spelled_of_decimal isDecimal) isExpr fun _ _ => rfl

theorem ReadsAs.symbol {name : String} (isName : name.toList ∈ Word.symbols) :
    ReadsAs name.toList (.symbol name) := by
  rcases Word.mem_symbols_iff.mp isName with ⟨nonempty, chars, isSymbol⟩
  have isExpr : ∀ extent, Expr.ofWord extent name.toList = .ok (.symbol name) := by
    intro extent
    rw [Expr.ofWord, isSymbol]
    simp only [String.ofList_toList]
  exact .word ⟨nonempty, chars⟩ isExpr fun _ _ => rfl

theorem Value.tailText_head (store : Store) (digits : Nat) (items : List Value) :
    tailText store digits items ≠ [] ∧
      ∀ c ∈ (tailText store digits items).head?, isWordChar c = false := by
  cases items <;> simp [tailText] <;> decide

theorem ReadsAsItems.tailText {store : Store} {digits : Nat} {items : List Value}
    (each : ∀ item ∈ items, ReadsAs (item.text store digits) (item.rounded digits)) :
    ReadsAsItems (Value.tailText store digits items) (Value.roundedEach digits items) := by
  induction items with
  | nil => exact .closing
  | cons item items ih =>
      rw [List.forall_mem_cons] at each
      rcases Value.tailText_head store digits items with ⟨nonempty, ended⟩
      exact .blank (.cons each.1 (ih each.2) nonempty ended)

/-- The text of a readable value reads as the rounded value. -/
theorem Value.Readable.readsAs {value : Value} (readable : value.Readable) (store : Store)
    (digits : Nat) : ReadsAs (value.text store digits) (value.rounded digits) := by
  induction readable with
  | nil => exact .word ⟨by simp [text], List.all_eq_true.mp rfl⟩ (fun _ => rfl) fun _ _ => rfl
  | boolean value =>
      cases value with
      | true => exact .word ⟨by simp [text], List.all_eq_true.mp rfl⟩ (fun _ => rfl) fun _ _ => rfl
      | false => exact .word ⟨by simp [text], List.all_eq_true.mp rfl⟩ (fun _ => rfl) fun _ _ => rfl
  | integer value => exact .integer value
  | float value => exact .float value digits
  | string value => exact .string value
  | symbol isName => exact .symbol isName
  | @list items _ ih =>
      cases items with
      | nil => exact .list .closing
      | cons head tail =>
          rw [List.forall_mem_cons] at ih
          rcases Value.tailText_head store digits tail with ⟨nonempty, ended⟩
          exact .list (.cons ih.1 (.tailText ih.2) nonempty ended)

/-- The quoted text of a readable value is a program of one form. -/
theorem Value.Readable.parses {value : Value} (readable : value.Readable) (store : Store)
    (digits : Nat) :
    ∃ expr : Expr, parseProgram ("'" ++ value.display store digits) =
      .ok (.sequence [.quote expr]) ∧ expr.Denotes (value.rounded digits) := by
  rcases readable.readsAs store digits 1 [] [] (by simp) .done with
    ⟨own, form, expr, split, written, isDatum, denotes⟩
  refine ⟨expr, ?_, denotes⟩
  rw [List.append_nil, List.append_nil] at split
  have isRead : readForms .program ('\'' :: value.text store digits) =
      .ok [.marked ⟨0, form.extent.stop⟩ .quote form] := by
    rw [readForms_eq_ok_iff]
    have splitQuote : Splits 0 (['\''] ++ value.text store digits)
        (⟨.mark .quote, ⟨0, 1⟩⟩ :: own) :=
      .token .quote (by simp) split
    have writtenQuote := @Form.Written.marked ⟨0, 1⟩ .quote form own written
    exact ⟨_, splitQuote, .singleton writtenQuote, by simp⟩
  have isCode : Form.toCodes [.marked ⟨0, form.extent.stop⟩ .quote form] = .ok [.quote expr] := by
    rw [Form.toCodes, Form.toCode, isDatum]
    rfl
  have source_eq : ("'" ++ value.display store digits).toList =
      '\'' :: value.text store digits := by
    simp [display]
  rw [parseProgram, parseForms, parseText, source_eq, isRead]
  simp only [isCode]
  rfl

/-- Reading undoes printing. The text of a value without functions, its symbols well named,
evaluates behind a quote mark to the value with its floats rounded to the digits shown, in every
interpreter and without a change of the store. A value whose floats all end within these digits is
given back as it was, and what is given back has the same text. -/
theorem reading_undoes_printing {value : Value} (readable : value.Readable) (digits : Nat)
    (printing store : Store) (interpreter : Interpreter) :
    interpreter.evaluate ("'" ++ value.display printing digits) store =
      (.ok (value.rounded digits), store) ∧
    (∀ number ∈ value.floats, RoundsTo digits number (roundHalfAway digits number)) ∧
    ((∀ number ∈ value.floats, Terminates digits number) → value.rounded digits = value) ∧
    (value.rounded digits).display printing digits = value.display printing digits := by
  refine ⟨?_, fun number _ => roundsTo_roundHalfAway digits number,
    Value.rounded_eq_of_terminates, ?_⟩
  · rcases readable.parses printing digits with ⟨expr, parsed, denotes⟩
    have evaluated : (Expr.sequence [.quote expr]).eval interpreter.depth interpreter.scope =
        pure (value.rounded digits) := by
      rw [Expr.eval, Expr.evalWith, Expr.evalEach, Expr.evalWith, denotes, pure_bind, Expr.evalEach,
        pure_bind, pure_bind]
      rfl
    rw [Interpreter.evaluate, parsed]
    simp only [Interpreter.evaluateExpr, evaluated]
    rfl
  · rw [Value.display, Value.text_rounded, Value.display]

theorem nested_list_is_read_back :
    let value : Value := .list [.symbol "quote", .float (-7 / 8), .string "\"\n\r", .list []]
    let start := Interpreter.create Store.empty
    value.Readable ∧
    value.display Store.empty 2 = "(quote -0.88 \"\\\"\\n\r\" ())" ∧
    start.1.evaluate ("'" ++ value.display Store.empty 2) start.2 =
      (.ok (.list [.symbol "quote", .float (-22 / 25), .string "\"\n\r", .list []]), start.2) ∧
    start.1.evaluate ("'" ++ value.display Store.empty 3) start.2 = (.ok value, start.2) := by
  intro value start
  have isName : "quote".toList ∈ Word.symbols :=
    Word.mem_symbols_iff.mpr ⟨by decide, List.all_eq_true.mp rfl, by decide⟩
  have readable : value.Readable := by
    refine .list ?_
    simp only [List.forall_mem_cons]
    exact ⟨.symbol isName, .float _, .string _, .list (by simp), by simp⟩
  have rounds : value.rounded 2 =
      .list [.symbol "quote", .float (-22 / 25), .string "\"\n\r", .list []] := by
    have half : roundHalfAway 2 (-7 / 8) = -22 / 25 := by decide +kernel
    simp only [value, Value.rounded, Value.roundedEach, half]
  have terminates : ∀ number ∈ value.floats, Terminates 3 number := by
    simp only [value, Value.floats, Value.floatsOf, List.nil_append, List.append_nil,
      List.mem_singleton, forall_eq]
    exact ⟨-875, by norm_num⟩
  have two := reading_undoes_printing readable 2 Store.empty start.2 start.1
  have three := reading_undoes_printing readable 3 Store.empty start.2 start.1
  rw [rounds] at two
  rw [three.2.2.1 terminates] at three
  exact ⟨readable, by decide +kernel, two.1, three.1⟩

end ExactLisp
