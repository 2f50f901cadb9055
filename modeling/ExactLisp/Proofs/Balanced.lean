import ExactLisp.Proofs.Grammar
import ExactLisp.Repl

/-!
# The balance of texts that can be read

The scanner and the count of open parentheses go through a text independently of each other. They
agree on where strings and comments begin, and on where strings end. A comment ends for the scanner
at a line feed or a carriage return, for the count at a line feed only. So the two are in step
(`Balance.InStep`) as long as every carriage return that ends a comment has its line feed, and then
the balance of a text that can be read is zero. With a carriage return alone it need not be
(`lone_return_hides_a_parenthesis`).
-/

namespace ExactLisp

/-! ### Tokens -/

/-- By how much a token changes the number of open lists. -/
def Token.nesting : Token → Int
  | .opening => 1
  | .closing => -1
  | _ => 0

/-- By how much tokens change the number of open lists. -/
def nestingOf : List Lexeme → Int
  | [] => 0
  | lexeme :: lexemes => lexeme.token.nesting + nestingOf lexemes

theorem nestingOf_append (first second : List Lexeme) :
    nestingOf (first ++ second) = nestingOf first + nestingOf second := by
  induction first with
  | nil => simp [nestingOf]
  | cons lexeme first ih =>
      rw [List.cons_append, nestingOf, nestingOf, ih]
      omega

theorem nestingOf_reverse (lexemes : List Lexeme) :
    nestingOf lexemes.reverse = nestingOf lexemes := by
  induction lexemes with
  | nil => rfl
  | cons lexeme lexemes ih =>
      rw [List.reverse_cons, nestingOf_append, ih, nestingOf, nestingOf, nestingOf]
      omega

theorem nestingOf_parts {parts : List (Form × List Lexeme)}
    (each : ∀ part ∈ parts, nestingOf part.2 = 0) : nestingOf (parts.flatMap Prod.snd) = 0 := by
  induction parts with
  | nil => rfl
  | cons part parts ih =>
      rw [List.forall_mem_cons] at each
      rw [List.flatMap_cons, nestingOf_append, each.1, ih each.2]
      rfl

/-- A form opens as many lists as it closes. -/
theorem Form.Written.nestingOf_eq_zero {form : Form} {lexemes : List Lexeme}
    (written : form.Written lexemes) : nestingOf lexemes = 0 := by
  induction written with
  | word => rfl
  | text => rfl
  | marked _ ih =>
      rw [nestingOf, ih]
      rfl
  | list _ ih =>
      rw [nestingOf, nestingOf_append, nestingOf_parts ih]
      rfl

/-! ### The scanner and the count in step -/

/-- What the count makes of a mode of the scanner. -/
def ScanMode.balanceMode : ScanMode → BalanceMode
  | .gap | .word .. | .stuck _ => .code
  | .comment => .comment
  | .text .. => .text
  | .escape .. => .escape

/-- A carriage return that ends a comment is followed by a line feed, if by anything. -/
def Scanner.PairsReturns (scanner : Scanner) (rest : List Char) : Prop :=
  ∀ before after, rest = before ++ '\r' :: after → (scanner.advance before).mode = .comment →
    after = [] ∨ after.head? = some '\n'

theorem Scanner.pairsReturns_cons {scanner : Scanner} {c : Char} {rest : List Char} :
    scanner.PairsReturns (c :: rest) ↔
      (scanner.mode = .comment → c = '\r' → rest = [] ∨ rest.head? = some '\n') ∧
        (scanner.step c).PairsReturns rest := by
  constructor
  · intro pairs
    constructor
    · rintro inComment rfl
      exact pairs [] rest rfl inComment
    · intro before after isRest inComment
      exact pairs (c :: before) after (by rw [isRest, List.cons_append]) inComment
  · rintro ⟨here, later⟩ before after isText inComment
    cases before with
    | nil =>
        cases isText
        exact here inComment rfl
    | cons first before =>
        rw [List.cons_append, List.cons.injEq] at isText
        rcases isText with ⟨rfl, isRest⟩
        exact later before after isRest inComment

instance Scanner.decidablePairsReturns :
    (scanner : Scanner) → (rest : List Char) → Decidable (scanner.PairsReturns rest)
  | _, [] => isTrue fun before _ isText => absurd isText (by simp)
  | scanner, c :: rest =>
    have := decidablePairsReturns (scanner.step c) rest
    decidable_of_iff _ pairsReturns_cons.symm

namespace Balance

/-- The count has met the parentheses that the scanner has found, and is where the scanner is, or
still in a comment whose line feed comes next. Where the scanner is stuck, nothing is said. -/
def InStep (scanner : Scanner) (balance : Balance) (rest : List Char) : Prop :=
  (∃ place, scanner.mode = .stuck place) ∨
    balance.depth = nestingOf scanner.found ∧
      (balance.mode = scanner.mode.balanceMode ∨
        scanner.mode = .gap ∧ balance.mode = .comment ∧ (rest = [] ∨ rest.head? = some '\n'))

theorem step_code_of_blank {depth : Int} {c : Char} (isBlank : isBlankChar c) :
    step ⟨.code, depth⟩ c = ⟨.code, depth⟩ := by
  simp only [isBlankChar, Bool.or_eq_true, beq_iff_eq] at isBlank
  rcases isBlank with ((rfl | rfl) | rfl) | rfl <;> rfl

theorem step_code_of_word {depth : Int} {c : Char} (isWord : isWordChar c) :
    step ⟨.code, depth⟩ c = ⟨.code, depth⟩ := by
  have notSpecial : c ≠ '(' ∧ c ≠ ')' ∧ c ≠ '"' ∧ c ≠ ';' := by
    refine ⟨?_, ?_, ?_, ?_⟩ <;> rintro rfl <;> exact absurd isWord (by decide)
  simp [step, notSpecial]

theorem inStep_stepGap (offset : Nat) {found : List Lexeme} {depth : Int}
    (counted : depth = nestingOf found) (c : Char) (rest : List Char) :
    InStep (Scanner.stepGap offset found c) (step ⟨.code, depth⟩ c) rest := by
  rcases Scanner.stepGap_cases offset found c with ⟨isBlank, stepped⟩ | ⟨rfl, stepped⟩ |
    ⟨token, spelled, notWord, stepped⟩ | ⟨rfl, stepped⟩ | ⟨isWord, stepped⟩ | stepped
  · rw [stepped, step_code_of_blank isBlank]
    exact Or.inr ⟨counted, Or.inl rfl⟩
  · rw [stepped]
    exact Or.inr ⟨counted, Or.inl rfl⟩
  · rw [stepped]
    generalize isSingle : [c] = spelling at spelled
    cases spelled with
    | opening =>
        cases isSingle
        refine Or.inr ⟨?_, Or.inl rfl⟩
        simp only [step, if_pos, nestingOf, Token.nesting, counted]
        omega
    | closing =>
        cases isSingle
        refine Or.inr ⟨?_, Or.inl rfl⟩
        simp only [step, Char.reduceEq, if_false, if_pos, nestingOf, Token.nesting, counted]
        omega
    | quote =>
        cases isSingle
        exact Or.inr ⟨by simp [step, nestingOf, Token.nesting, counted], Or.inl rfl⟩
    | unquote =>
        cases isSingle
        exact Or.inr ⟨by simp [step, nestingOf, Token.nesting, counted], Or.inl rfl⟩
    | text body => simp at isSingle
    | word _ _ => exact absurd rfl (notWord _)
  · rw [stepped]
    exact Or.inr ⟨counted, Or.inl rfl⟩
  · rw [stepped, step_code_of_word isWord]
    exact Or.inr ⟨counted, Or.inl rfl⟩
  · rw [stepped]
    exact Or.inl ⟨_, rfl⟩

theorem InStep.step {scanner : Scanner} {balance : Balance} {c : Char} {rest : List Char}
    (inStep : InStep scanner balance (c :: rest))
    (pairs : scanner.mode = .comment → c = '\r' → rest = [] ∨ rest.head? = some '\n') :
    InStep (scanner.step c) (balance.step c) rest := by
  rcases scanner with ⟨mode, offset, found⟩
  rcases balance with ⟨balanceMode, depth⟩
  rcases inStep with ⟨place, isStuck⟩ | ⟨counted, sameMode | ⟨isGap, inComment, isFeed⟩⟩
  · simp only at isStuck
    subst isStuck
    exact Or.inl ⟨place, rfl⟩
  · simp only at counted sameMode
    subst sameMode
    cases mode with
    | gap => exact inStep_stepGap offset counted c rest
    | comment =>
        simp only [Scanner.step, Balance.step, ScanMode.balanceMode]
        by_cases isFeed : c = '\n'
        · subst isFeed
          exact Or.inr ⟨counted, Or.inl rfl⟩
        · by_cases isReturn : c = '\r'
          · -- the scanner leaves the comment here, the count after the line feed
            subst isReturn
            exact Or.inr ⟨counted, Or.inr ⟨rfl, rfl, pairs rfl rfl⟩⟩
          · simp only [isFeed, isReturn, decide_false, Bool.or_false, if_false]
            exact Or.inr ⟨counted, Or.inl rfl⟩
    | word start seen =>
        simp only [Scanner.step]
        split
        · rename_i isWord
          rw [ScanMode.balanceMode, step_code_of_word isWord]
          exact Or.inr ⟨counted, Or.inl rfl⟩
        · apply inStep_stepGap
          simp [Scanner.wordLexeme, nestingOf, Token.nesting, counted]
    | text start seen =>
        simp only [Scanner.step, Balance.step, ScanMode.balanceMode]
        by_cases isMark : c = '"'
        · subst isMark
          exact Or.inr ⟨by simp [nestingOf, Token.nesting, counted], Or.inl rfl⟩
        · by_cases isEscape : c = '\\'
          · subst isEscape
            exact Or.inr ⟨counted, Or.inl rfl⟩
          · simp only [isMark, isEscape, if_false]
            exact Or.inr ⟨counted, Or.inl rfl⟩
    | escape start seen => exact Or.inr ⟨counted, Or.inl rfl⟩
    | stuck place => exact Or.inl ⟨place, rfl⟩
  · simp only at counted isGap inComment
    subst isGap inComment
    simp only [List.cons_ne_nil, List.head?_cons, Option.some.injEq, false_or] at isFeed
    subst isFeed
    exact Or.inr ⟨counted, Or.inl rfl⟩

theorem InStep.advance {scanner : Scanner} {balance : Balance} {rest : List Char}
    (inStep : InStep scanner balance rest) (pairs : scanner.PairsReturns rest) :
    InStep (scanner.advance rest) (balance.advance rest) [] := by
  induction rest generalizing scanner balance with
  | nil => exact inStep
  | cons c rest ih =>
      rcases Scanner.pairsReturns_cons.mp pairs with ⟨here, later⟩
      exact ih (inStep.step here) later

/-- At the end of a text that splits into tokens, the count is what the tokens amount to. -/
theorem InStep.depth_eq {scanner : Scanner} {balance : Balance} {lexemes : List Lexeme}
    {stop : Nat} (inStep : InStep scanner balance [])
    (finished : scanner.finish = ⟨lexemes, .complete stop⟩) :
    balance.depth = nestingOf lexemes := by
  rcases scanner with ⟨mode, offset, found⟩
  rcases inStep with ⟨place, isStuck⟩ | ⟨counted, _⟩
  · simp only at isStuck
    subst isStuck
    cases finished
  · cases mode with
    | gap | comment =>
        cases finished
        rw [counted, nestingOf_reverse]
    | word start seen =>
        cases finished
        rw [counted, nestingOf_reverse, nestingOf]
        exact (Int.zero_add _).symm
    | text _ _ | escape _ _ | stuck _ => cases finished

end Balance

/-- If a text can be read, its balance is zero and the interactive loop does not wait for more
lines, unless a comment of it is ended by a carriage return that has no line feed. -/
theorem balance_of_parsed_text {source : String} {forms : List Expr}
    (pairs : (Scanner.starting 0).PairsReturns source.toList)
    (parsed : parseForms source = .ok forms) :
    parenDepth source.toList = 0 ∧ Repl.readiness source ≠ .waiting := by
  have depth_eq_zero : parenDepth source.toList = 0 := by
    rw [parseForms, parseText] at parsed
    split at parsed
    · cases parsed
    · rename_i read areRead
      rcases readForms_eq_ok_iff.mp areRead with ⟨lexemes, split, ⟨parts, each, _, rfl⟩, _⟩
      have started : Balance.InStep (Scanner.starting 0) Balance.initial source.toList :=
        Or.inr ⟨rfl, Or.inl rfl⟩
      have counted := (started.advance pairs).depth_eq split.ofText_eq
      rw [parenDepth, counted]
      exact nestingOf_parts fun part partMem => (each part partMem).nestingOf_eq_zero
  refine ⟨depth_eq_zero, ?_⟩
  rw [Repl.readiness, depth_eq_zero]
  simp only [Int.lt_irrefl, if_false]
  split <;> simp

theorem balance_of_two_lines :
    (Scanner.starting 0).PairsReturns "(f ; (\r\n \"\\\")\")\r".toList ∧
    parseForms "(f ; (\r\n \"\\\")\")\r" =
      .ok [.list [.symbol "f", .literal (.string "\")")]] ∧
    parenDepth "(f ; (\r\n \"\\\")\")\r".toList = 0 := by
  have pairs : (Scanner.starting 0).PairsReturns "(f ; (\r\n \"\\\")\")\r".toList := by decide
  have parsed : parseForms "(f ; (\r\n \"\\\")\")\r" =
      .ok [.list [.symbol "f", .literal (.string "\")")]] := by rfl
  exact ⟨pairs, parsed, (balance_of_parsed_text pairs parsed).1⟩

/-- The empty list is read, with its closing parenthesis behind the comment, and the count goes on
to the end of the text. -/
theorem lone_return_hides_a_parenthesis :
    parseForms "(;\r)" = .ok [.list []] ∧ parenDepth "(;\r)".toList = 1 ∧
      Repl.readiness "(;\r)\n" = .waiting := by
  refine ⟨by rfl, by decide, by decide⟩

end ExactLisp
