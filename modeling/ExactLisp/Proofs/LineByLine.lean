import ExactLisp.Proofs.Balanced
import ExactLisp.Proofs.Concatenation
import ExactLisp.Proofs.Programs

/-!
# Programs typed line by line

The interactive loop hands over what it has collected whenever no parenthesis is open. If the text
stands neither inside a string literal nor behind a mark without its form there, nothing is open for
the reader either (`readForms_of_atRest`). So what is handed over is a program of its own, and the
rest of the text is another one. By induction over the lines the programs handed over make up the
whole, form by form.
-/

namespace ExactLisp

/-! ### Where a text can be cut -/

/-- Whether the scanner is inside a string literal. -/
def ScanMode.inText : ScanMode → Bool
  | .text .. | .escape .. => true
  | _ => false

def Token.isMark : Token → Bool
  | .mark _ => true
  | _ => false

def Opened.isList : Opened → Bool
  | .list .. => true
  | .mark .. => false

/-- The scanner is not inside a string literal, and the last token is no mark. -/
def Scanner.AtRest (scanner : Scanner) : Prop :=
  scanner.mode.inText = false ∧ ∀ lexeme ∈ scanner.found.head?, lexeme.token.isMark = false

instance (scanner : Scanner) : Decidable scanner.AtRest :=
  inferInstanceAs (Decidable (_ ∧ _))

theorem Form.WrittenEach.nestingOf_eq_zero {forms : List Form} {lexemes : List Lexeme}
    (written : WrittenEach forms lexemes) : nestingOf lexemes = 0 := by
  rcases written with ⟨parts, each, _, rfl⟩
  exact nestingOf_parts fun part partMem => (each part partMem).nestingOf_eq_zero

/-- The balance of what the reader has open is the number of its lists. -/
theorem Reader.OpenedAs.nestingOf_eq {opened : List Opened} {lexemes : List Lexeme}
    (openedAs : OpenedAs opened lexemes) : nestingOf lexemes = opened.countP Opened.isList := by
  induction openedAs with
  | nothing => rfl
  | list _ written ih =>
      rw [List.countP_cons_of_pos rfl, nestingOf_append, ih, nestingOf, written.nestingOf_eq_zero]
      rfl
  | mark _ ih =>
      rw [List.countP_cons_of_neg (by simp [Opened.isList]), nestingOf_append, ih]
      exact Int.add_zero _

/-- Without carriage returns, the balance of a text is that of its tokens. -/
theorem Splits.parenDepth_eq {source : List Char} {lexemes : List Lexeme}
    (split : Splits 0 source lexemes) (noReturn : '\r' ∉ source) :
    parenDepth source = nestingOf lexemes := by
  have pairs : (Scanner.starting 0).PairsReturns source := by
    rintro before after rfl
    simp at noReturn
  have started : Balance.InStep (Scanner.starting 0) Balance.initial source :=
    Or.inr ⟨rfl, Or.inl rfl⟩
  exact (started.advance pairs).depth_eq split.ofText_eq

theorem Scanner.advance_stuck (place offset : Nat) (found : List Lexeme) (text : List Char) :
    ((⟨.stuck place, offset, found⟩ : Scanner).advance text).mode = .stuck place := by
  induction text generalizing offset with
  | nil => rfl
  | cons c text ih => exact ih (offset + 1)

/-- Up to a line feed outside of string literals, a text that splits has split. -/
theorem Splits.before_newline {first second : List Char} {whole : List Lexeme}
    (split : Splits 0 (first ++ '\n' :: second) whole)
    (outside : ((Scanner.starting 0).advance (first ++ ['\n'])).mode.inText = false) :
    ∃ lexemes, Splits 0 first lexemes := by
  have scanned := split.ofText_eq
  rw [Scan.ofText, Scanner.advance_append] at scanned
  rw [Scanner.advance_append] at outside
  have complete : ∃ stop, (Scan.ofText first).ending = .complete stop := by
    rw [Scan.ofText]
    generalize (Scanner.starting 0).advance first = scanner at scanned outside
    rcases scanner with ⟨mode, offset, found⟩
    cases mode with
    | gap | comment | word _ _ => exact ⟨offset, rfl⟩
    | text _ _ | escape _ _ => cases outside
    | stuck place =>
        have stays := Scanner.advance_stuck place offset found ('\n' :: second)
        simp [Scanner.finish, stays] at scanned
  rcases complete with ⟨stop, complete⟩
  exact ⟨_, Splits.of_complete complete⟩

/-- A text that can be read can be cut behind a line where no parenthesis is open, unless it is
inside a string literal there or a mark awaits its form. -/
theorem readForms_of_atRest {first second : List Char} {whole : List Form}
    (isRead : readForms .program (first ++ '\n' :: second) = .ok whole) (noReturn : '\r' ∉ first)
    (closed : parenDepth (first ++ ['\n']) ≤ 0)
    (atRest : ((Scanner.starting 0).advance (first ++ ['\n'])).AtRest) :
    ∃ forms, readForms .program first = .ok forms := by
  rcases readForms_eq_ok_iff.mp isRead with ⟨wholeLexemes, splitWhole, writtenWhole, _⟩
  rcases splitWhole.before_newline atRest.1 with ⟨lexemes, split⟩
  rcases split.of_append splitWhole with ⟨others, _, rfl⟩
  -- the reader where the first text ends
  have advanced := Reader.advance_writtenEach writtenWhole []
  rw [Reader.advance_append] at advanced
  rcases bind_eq_ok_iff.mp advanced with ⟨reader, advancedFirst, _⟩
  have started : Reader.initial.Holds [] := ⟨[], [], rfl, .nil, .nothing⟩
  rcases started.advance advancedFirst with ⟨done, pending, isAll, writtenDone, openedAs⟩
  rw [List.nil_append] at isAll
  subst isAll
  generalize reader.opened = opened at openedAs
  have noneOpen : opened.countP Opened.isList = 0 := by
    have counted := (split.append .done).parenDepth_eq (by simpa using noReturn)
    rw [counted, List.map_nil, List.append_nil, nestingOf_append, writtenDone.nestingOf_eq_zero,
      openedAs.nestingOf_eq] at closed
    omega
  have found : ((Scanner.starting 0).advance (first ++ ['\n'])).found =
      (done ++ pending).reverse := by
    rw [split.advance_append]
    simp [Scanner.behind, Scanner.advance, Scanner.starting]
  cases openedAs with
  | nothing =>
      rw [List.append_nil] at split
      exact ⟨_, readForms_eq_ok_iff.mpr ⟨_, split, writtenDone, by simp⟩⟩
  | list _ _ => simp [Opened.isList] at noneOpen
  | mark _ =>
      have noMark := atRest.2
      simp [found, Token.isMark] at noMark

/-- What is at rest behind a line is at rest in the text that starts there. -/
theorem Scanner.AtRest.of_append {first second : List Char} {lexemes : List Lexeme}
    (split : Splits 0 first lexemes)
    (atRest : ((Scanner.starting 0).advance (first ++ '\n' :: second)).AtRest) :
    ((Scanner.starting 0).advance second).AtRest := by
  rw [split.advance_append] at atRest
  generalize (Scanner.starting 0).advance second = scanner at atRest
  rcases scanner with ⟨mode, offset, found⟩
  rcases atRest with ⟨outside, noMark⟩
  refine ⟨?_, ?_⟩
  · cases mode <;> exact outside
  · cases found with
    | nil => simp
    | cons last found => simpa [Scanner.behind, Lexeme.relocate] using noMark

/-! ### Blank texts -/

theorem not_isBlank_of_isWordChar {c : Char} (isWord : isWordChar c) : isBlank c = false := by
  have printable : 0x21 ≤ c.toNat ∧ c.toNat ≤ 0x7e := by
    have marks : ∀ mark ∈ "!$%&*/:<=>?^_~+-.#".toList,
        0x21 ≤ mark.toNat ∧ mark.toNat ≤ 0x7e := by simp
    simp only [isWordChar, isDigitChar, Bool.or_eq_true, Bool.and_eq_true, decide_eq_true_eq,
      List.contains_iff_mem] at isWord
    rcases isWord with ((⟨low, high⟩ | ⟨low, high⟩) | ⟨low, high⟩) | isMark
    · change 48 ≤ c.toNat at low
      change c.toNat ≤ 57 at high
      omega
    · change 97 ≤ c.toNat at low
      change c.toNat ≤ 122 at high
      omega
    · change 65 ≤ c.toNat at low
      change c.toNat ≤ 90 at high
      omega
    · exact marks c isMark
  simp only [isBlank, inRanges, blankRanges, CodeRange.contains, List.any_cons, List.any_nil,
    Bool.or_false, Bool.or_eq_false_iff, Bool.and_eq_false_iff, decide_eq_false_iff_not]
  omega

/-- A blank text holds no forms. -/
theorem Splits.eq_nil_of_blank {offset : Nat} {source : List Char} {lexemes : List Lexeme}
    (split : Splits offset source lexemes) (blank : ∀ c ∈ source, isBlank c) : lexemes = [] := by
  induction split with
  | done => rfl
  | blank _ _ ih => exact ih fun c cMem => blank c (List.mem_cons_of_mem _ cMem)
  | comment _ _ _ _ => exact absurd (blank ';' (by simp)) (by decide)
  | token spelled _ _ _ =>
      cases spelled with
      | opening => exact absurd (blank '(' (by simp)) (by decide)
      | closing => exact absurd (blank ')' (by simp)) (by decide)
      | quote => exact absurd (blank '\'' (by simp)) (by decide)
      | unquote => exact absurd (blank ',' (by simp)) (by decide)
      | text _ => exact absurd (blank '"' (by simp)) (by decide)
      | word nonempty chars =>
          rcases List.exists_mem_of_ne_nil _ nonempty with ⟨c, cMem⟩
          have isBlank := blank c (List.mem_append_left _ cMem)
          rw [not_isBlank_of_isWordChar (chars c cMem)] at isBlank
          cases isBlank

/-! ### Programs in two parts -/

/-- A program that can be cut is parsed in two parts. -/
theorem parseForms_of_append {first second : String} {forms : List Expr}
    (readable : ¬Malformed first) (parsed : parseForms (first ++ "\n" ++ second) = .ok forms) :
    ∃ exprs others, parseForms first = .ok exprs ∧ parseForms second = .ok others ∧
      forms = exprs ++ others := by
  have readableSecond : ¬Malformed second := by
    intro malformed
    exact not_malformed_of_parsed parsed (malformed_of_append readable malformed)
  rw [parseForms_append readable readableSecond] at parsed
  rcases bind_eq_ok_iff.mp parsed with ⟨exprs, parsedFirst, parsedRest⟩
  rcases bind_eq_ok_iff.mp parsedRest with ⟨others, parsedSecond, isAll⟩
  cases isAll
  cases parsedAlone : parseForms second with
  | error error =>
      rw [parsedAlone] at parsedSecond
      cases parsedSecond
  | ok exprsAlone =>
      rw [parsedAlone] at parsedSecond
      cases parsedSecond
      exact ⟨_, _, parsedFirst, rfl, rfl⟩

/-- A line feed at the end of a program makes no difference. -/
theorem parseForms_newline {source : String} {forms : List Expr}
    (parsed : parseForms source = .ok forms) : parseForms (source ++ "\n") = .ok forms := by
  have parsedNothing : parseForms "" = .ok [] := rfl
  have whole := parseForms_append (not_malformed_of_parsed parsed)
    (not_malformed_of_parsed parsedNothing)
  rw [String.append_empty, parsed, parsedNothing] at whole
  rw [whole]
  exact congrArg Except.ok (List.append_nil forms)

theorem parenDepth_of_parsed {source : String} {forms : List Expr}
    (parsed : parseForms source = .ok forms) (noReturn : '\r' ∉ source.toList) :
    parenDepth source.toList = 0 := by
  rcases not_malformed_iff.mp (not_malformed_of_parsed parsed) with ⟨read, isRead⟩
  rcases readForms_eq_ok_iff.mp isRead with ⟨lexemes, split, written, _⟩
  rw [split.parenDepth_eq noReturn, written.nestingOf_eq_zero]

theorem eq_nil_of_blank {source : String} {forms : List Expr}
    (parsed : parseForms source = .ok forms) (blank : ∀ c ∈ source.toList, isBlank c) :
    forms = [] := by
  rcases not_malformed_iff.mp (not_malformed_of_parsed parsed) with ⟨read, isRead⟩
  rcases readForms_eq_ok_iff.mp isRead with ⟨lexemes, split, written, _⟩
  rw [split.eq_nil_of_blank blank] at written
  have isNothing := written.unique .nil
  rw [parseForms_of_read isRead, isNothing] at parsed
  cases parsed
  rfl

/-! ### Lines -/

/-- Lines as a text, each with a line feed behind it. -/
def textOfLines : List String → String
  | [] => ""
  | line :: lines => line ++ "\n" ++ textOfLines lines

theorem textOfLines_append (first second : List String) :
    textOfLines (first ++ second) = textOfLines first ++ textOfLines second := by
  induction first with
  | nil => simp [textOfLines]
  | cons line first ih => simp [textOfLines, ih, String.append_assoc]

theorem textOfLines_concat (lines : List String) (line : String) :
    textOfLines (lines ++ [line]) = textOfLines lines ++ line ++ "\n" := by
  simp [textOfLines_append, textOfLines, String.append_assoc]

namespace Repl

/-- What is pending after a line that is no command. -/
def pendingWith (pending line : String) : String :=
  let collected := pending ++ line ++ "\n"
  if 0 < parenDepth collected.toList then collected else ""

/-- What is pending after lines of which none is a command. -/
def pendingAfter (lines : List String) : String :=
  lines.foldl pendingWith ""

/-- The program that was run in a turn. -/
def Turn.program (turn : Turn) : Option String :=
  match turn.action with
  | .run program => some program
  | _ => none

/-- The loop takes lines, one after the other. -/
def takeLines (repl : Repl) (lines : List String) : List Turn × Except Ending Repl :=
  repl.takeTurns (lines.map .line)

/-- Lines that form whole programs as they are typed. -/
structure Typable (lines : List String) : Prop where
  unbroken : ∀ line ∈ lines, '\r' ∉ line.toList
  /-- No line that starts a new program looks like a command. -/
  noCommand : ∀ count, pendingAfter (lines.take count) = "" →
    ∀ line ∈ lines[count]?, (trimStart line.toList).head? ≠ some ':'
  /-- Where a program is handed over, the text is not inside a string literal, and no mark awaits
  its form. -/
  atRest : ∀ count, pendingAfter (lines.take count) = "" →
    ((Scanner.starting 0).advance (textOfLines (lines.take count)).toList).AtRest

theorem typable_iff {lines : List String} : Typable lines ↔
    (∀ line ∈ lines, '\r' ∉ line.toList) ∧
    (∀ count < lines.length, pendingAfter (lines.take count) = "" →
      ∀ line ∈ lines[count]?, (trimStart line.toList).head? ≠ some ':') ∧
    ∀ count < lines.length + 1, pendingAfter (lines.take count) = "" →
      ((Scanner.starting 0).advance (textOfLines (lines.take count)).toList).AtRest := by
  constructor
  · rintro ⟨unbroken, noCommand, atRest⟩
    exact ⟨unbroken, fun count _ => noCommand count, fun count _ => atRest count⟩
  · rintro ⟨unbroken, noCommand, atRest⟩
    refine ⟨unbroken, ?_, ?_⟩
    · intro count noneBefore line lineMem
      rcases List.getElem?_eq_some_iff.mp lineMem with ⟨inside, _⟩
      exact noCommand count inside noneBefore line lineMem
    · intro count noneBefore
      by_cases inside : count < lines.length + 1
      · exact atRest count inside noneBefore
      · have all := atRest lines.length (Nat.lt_succ_self _)
        rw [List.take_length] at all
        rw [List.take_of_length_le (by omega)] at noneBefore ⊢
        exact all noneBefore

instance (lines : List String) : Decidable (Typable lines) :=
  decidable_of_iff _ typable_iff.symm

variable {repl : Repl} {line : String} {lines : List String}

/-- What the loop does with a line that is no command: it adds the line to what is pending, drops it
with what is pending, or runs what is pending and the line as a program. -/
theorem action_cases (notCommand : repl.isCommand line = false) :
    (0 < parenDepth (repl.pending ++ line ++ "\n").toList ∧
      repl.action (.line line) = .collect (repl.pending ++ line ++ "\n")) ∨
    parenDepth (repl.pending ++ line ++ "\n").toList ≤ 0 ∧
      ((∀ c ∈ (repl.pending ++ line ++ "\n").toList, isBlank c) ∧
          repl.action (.line line) = .skip ∨
        repl.action (.line line) = .run (repl.pending ++ line ++ "\n")) := by
  simp only [action, notCommand, Bool.false_eq_true, if_false]
  generalize repl.pending ++ line ++ "\n" = collected
  by_cases waits : 0 < parenDepth collected.toList
  · have waiting : readiness collected = .waiting := if_pos waits
    simp only [waiting]
    exact Or.inl ⟨waits, trivial⟩
  · refine Or.inr ⟨by omega, ?_⟩
    by_cases blank : collected.toList.all isBlank
    · have isBlank : readiness collected = .blank := by rw [readiness, if_neg waits, if_pos blank]
      simp only [isBlank]
      exact Or.inl ⟨List.all_eq_true.mp blank, trivial⟩
    · have isReady : readiness collected = .ready := by rw [readiness, if_neg waits, if_neg blank]
      simp only [isReady]
      exact Or.inr trivial

/-- A line whose action leads on is a turn of its own, and the others follow. -/
theorem takeLines_cons {action : Action} {shown : List Output} {next : Repl}
    (acts : repl.action (.line line) = action)
    (performed : repl.perform action = (shown, .ok next)) :
    repl.takeLines (line :: lines) =
      (⟨repl.prompt, action, shown⟩ :: (next.takeLines lines).1, (next.takeLines lines).2) := by
  rw [takeLines, List.map_cons, takeTurns, takeTurn, acts]
  simp only [performed]
  rfl

theorem pendingAfter_concat (lines : List String) (line : String) :
    pendingAfter (lines ++ [line]) = pendingWith (pendingAfter lines) line := by
  simp [pendingAfter]

theorem pendingAfter_append {first : List String} (handedOver : pendingAfter first = "")
    (second : List String) : pendingAfter (first ++ second) = pendingAfter second := by
  rw [pendingAfter, List.foldl_append]
  exact congrArg (List.foldl pendingWith · second) handedOver

/-- What is pending has an open parenthesis. -/
theorem pendingAfter_waits (lines : List String) :
    pendingAfter lines = "" ∨ 0 < parenDepth (pendingAfter lines).toList := by
  rcases List.eq_nil_or_concat lines with rfl | ⟨earlier, last, rfl⟩
  · exact Or.inl rfl
  · rw [List.concat_eq_append, pendingAfter_concat, pendingWith]
    split_ifs with waits
    · exact Or.inr waits
    · exact Or.inl rfl

/-- Lines that the loop takes for whole programs do so without the programs before them. -/
theorem Typable.drop {first : List String} {body : String} {lexemes : List Lexeme}
    (typable : Typable (first ++ lines)) (handedOver : pendingAfter first = "")
    (isText : textOfLines first = body ++ "\n") (split : Splits 0 body.toList lexemes) :
    Typable lines := by
  have takes : ∀ count, (first ++ lines).take (first.length + count) =
      first ++ lines.take count := List.take_length_add_append
  refine ⟨?_, ?_, ?_⟩
  · intro line lineMem
    exact typable.unbroken line (List.mem_append_right _ lineMem)
  · intro count noneBefore line lineMem
    apply typable.noCommand (first.length + count)
    · rw [takes, pendingAfter_append handedOver, noneBefore]
    · rw [List.getElem?_append_right (Nat.le_add_right _ _), Nat.add_sub_cancel_left]
      exact lineMem
  · intro count noneBefore
    have atRest := typable.atRest (first.length + count) (by
      rw [takes, pendingAfter_append handedOver, noneBefore])
    rw [takes, textOfLines_append, isText, toList_newline] at atRest
    exact atRest.of_append split

theorem Typable.noReturn (typable : Typable lines) : '\r' ∉ (textOfLines lines).toList := by
  have unbroken := typable.unbroken
  clear typable
  induction lines with
  | nil => simp [textOfLines]
  | cons line lines ih =>
      rw [List.forall_mem_cons] at unbroken
      simp [textOfLines, unbroken.1, ih unbroken.2]

/-- Where a program is handed over, it can be parsed, and so can the lines after it. -/
theorem Typable.cut {collected : List String} {forms : List Expr}
    (typable : Typable (collected ++ line :: lines))
    (collects : pendingAfter collected = textOfLines collected)
    (closed : parenDepth (textOfLines collected ++ line ++ "\n").toList ≤ 0)
    (parsed : parseForms (textOfLines (collected ++ line :: lines)) = .ok forms) :
    Typable lines ∧ ∃ exprs others,
      parseForms (textOfLines collected ++ line ++ "\n") = .ok exprs ∧
      parseForms (textOfLines lines) = .ok others ∧ forms = exprs ++ others := by
  have handedOver : pendingAfter (collected ++ [line]) = "" := by
    rw [pendingAfter_concat, pendingWith, collects]
    exact if_neg (by omega)
  have noReturn := typable.noReturn
  rw [List.append_cons] at typable parsed noReturn
  have atRest := typable.atRest (collected ++ [line]).length (by rw [List.take_left, handedOver])
  rw [List.take_left, textOfLines_concat] at atRest
  rw [textOfLines_append, textOfLines_concat] at parsed noReturn
  have isText := textOfLines_concat collected line
  generalize textOfLines collected ++ line = body at *
  -- the text up to here can be read on its own, with the rest behind it
  have readable : ∃ read, readForms .program body.toList = .ok read := by
    rcases not_malformed_iff.mp (not_malformed_of_parsed parsed) with ⟨whole, isRead⟩
    rw [toList_newline] at isRead
    refine readForms_of_atRest isRead ?_ (by simpa using closed) (by simpa using atRest)
    intro returnMem
    simp [returnMem] at noReturn
  have isSplit : ∃ lexemes, Splits 0 body.toList lexemes := by
    rcases readable with ⟨read, isRead⟩
    rcases readForms_eq_ok_iff.mp isRead with ⟨lexemes, split, _⟩
    exact ⟨lexemes, split⟩
  rcases isSplit with ⟨lexemes, split⟩
  rcases parseForms_of_append (not_malformed_iff.mpr readable) parsed with
    ⟨exprs, others, parsedBody, parsedRest, isAll⟩
  exact ⟨typable.drop handedOver isText split, exprs, others, parseForms_newline parsedBody,
    parsedRest, isAll⟩

/-- The loop ran exactly these forms, in this order, and nothing is left pending. -/
structure Ran (repl : Repl) (forms : List Expr) (taken : List Turn × Except Ending Repl) :
    Prop where
  programs : List.flatten <$> (taken.1.filterMap Turn.program).mapM parseForms = .ok forms
  shown : taken.1.flatMap Turn.shown =
    (repl.interpreter.runForms repl.config forms repl.store).outputs
  next : taken.2 = .ok { repl with
    store := (repl.interpreter.runForms repl.config forms repl.store).store, pending := "" }

theorem Ran.silent {action : Action} {pending : String} {forms : List Expr}
    (acts : repl.action (.line line) = action)
    (performed : repl.perform action = ([], .ok { repl with pending }))
    (nothing : ∀ program, action ≠ .run program)
    (ran : Ran { repl with pending } forms (takeLines { repl with pending } lines)) :
    repl.Ran forms (repl.takeLines (line :: lines)) := by
  rw [takeLines_cons acts performed]
  refine ⟨?_, ran.shown, ran.next⟩
  have noProgram : Turn.program ⟨repl.prompt, action, []⟩ = none := by
    cases action with
    | run program => exact absurd rfl (nothing program)
    | _ => rfl
  rw [List.filterMap_cons_none noProgram]
  exact ran.programs

theorem Ran.program {program : String} {forms others : List Expr}
    (acts : repl.action (.line line) = .run program) (parsed : parseForms program = .ok forms)
    (ran : ∀ store, Ran { repl with pending := "", store } others
      (takeLines { repl with pending := "", store } lines)) :
    repl.Ran (forms ++ others) (repl.takeLines (line :: lines)) := by
  have isRun : repl.interpreter.runProgram repl.config program repl.store =
      repl.interpreter.runForms repl.config forms repl.store := by
    rw [Interpreter.runProgram, parsed]
  have performed : repl.perform (.run program) =
      ((repl.interpreter.runForms repl.config forms repl.store).outputs, .ok { repl with
        pending := ""
        store := (repl.interpreter.runForms repl.config forms repl.store).store }) := by
    rw [perform, isRun]
    rfl
  rcases ran (repl.interpreter.runForms repl.config forms repl.store).store with
    ⟨programs, shown, next⟩
  rw [takeLines_cons acts performed]
  refine ⟨?_, ?_, ?_⟩
  · rcases map_eq_ok_iff.mp programs with ⟨parts, areParsed, rfl⟩
    simp only [List.filterMap_cons, Turn.program, List.mapM_cons, parsed]
    rw [areParsed]
    rfl
  · rw [repl.interpreter.runForms_append, List.flatMap_cons, shown]
  · rw [repl.interpreter.runForms_append]
    exact next

/-- Whatever is pending, the lines that complete a program and those after it are run as they would
be as a whole. -/
theorem ran_takeLines {collected : List String} {forms : List Expr}
    (typable : Typable (collected ++ lines))
    (collects : pendingAfter collected = textOfLines collected)
    (isPending : repl.pending = textOfLines collected)
    (parsed : parseForms (textOfLines (collected ++ lines)) = .ok forms) :
    repl.Ran forms (repl.takeLines lines) := by
  induction lines generalizing repl collected forms with
  | nil =>
      rw [List.append_nil] at typable parsed
      have closed := parenDepth_of_parsed parsed typable.noReturn
      have nothing : textOfLines collected = "" := by
        rcases pendingAfter_waits collected with nothing | waits
        · rw [← collects, nothing]
        · rw [collects, closed] at waits
          cases waits
      have noForms : parseForms "" = .ok [] := rfl
      rw [nothing] at parsed isPending
      rw [noForms] at parsed
      cases parsed
      refine ⟨rfl, rfl, ?_⟩
      rw [← isPending]
      rfl
  | cons line lines ih =>
      have notCommand : repl.isCommand line = false := by
        rw [isCommand, Bool.and_eq_false_imp]
        intro isEmpty
        rw [String.isEmpty_iff, isPending, ← collects] at isEmpty
        have noCommand := typable.noCommand collected.length (by simpa using isEmpty) line (by simp)
        simpa using noCommand
      rcases action_cases notCommand with ⟨waits, collects'⟩ | ⟨closed, handedOver⟩
      · refine .silent collects' rfl (by simp) (@ih _ (collected ++ [line]) _ ?_ ?_ ?_ ?_)
        · rwa [← List.append_cons]
        · rw [pendingAfter_concat, pendingWith, collects, textOfLines_concat]
          exact if_pos (isPending ▸ waits)
        · rw [textOfLines_concat, ← isPending]
        · rwa [← List.append_cons]
      · have cut := typable.cut collects (isPending ▸ closed) parsed
        rw [← isPending] at cut
        rcases cut with ⟨typableRest, exprs, others, parsedProgram, parsedRest, rfl⟩
        have ran : ∀ store, Ran ⟨repl.interpreter, repl.config, store, ""⟩ others
            (takeLines ⟨repl.interpreter, repl.config, store, ""⟩ lines) := by
          intro store
          exact @ih _ [] _ typableRest rfl rfl parsedRest
        rcases handedOver with ⟨blank, skips⟩ | runs
        · rw [eq_nil_of_blank parsedProgram blank, List.nil_append]
          exact .silent skips rfl (by simp) (ran repl.store)
        · exact .program runs parsedProgram ran

/-- What is pending while lines are typed is what `pendingAfter` says. -/
theorem pending_takeLines
    (noCommand : ∀ count, (lines.take count).foldl pendingWith repl.pending = "" →
      ∀ line ∈ lines[count]?, (trimStart line.toList).head? ≠ some ':') :
    ∃ next, (repl.takeLines lines).2 = .ok next ∧
      next.pending = lines.foldl pendingWith repl.pending := by
  induction lines generalizing repl with
  | nil => exact ⟨repl, rfl, rfl⟩
  | cons line lines ih =>
      have notCommand : repl.isCommand line = false := by
        rw [isCommand, Bool.and_eq_false_imp]
        intro isEmpty
        simpa using noCommand 0 (String.isEmpty_iff.mp isEmpty) line rfl
      have taken : ∃ action shown next, repl.action (.line line) = action ∧
          repl.perform action = (shown, .ok next) ∧
          next.pending = pendingWith repl.pending line := by
        rcases action_cases notCommand with ⟨waits, acts⟩ | ⟨closed, ⟨_, acts⟩ | acts⟩
        · exact ⟨_, _, _, acts, rfl, (if_pos waits).symm⟩
        · exact ⟨_, _, _, acts, rfl, (if_neg (Int.not_lt.mpr closed)).symm⟩
        · exact ⟨_, _, _, acts, rfl, (if_neg (Int.not_lt.mpr closed)).symm⟩
      rcases taken with ⟨action, shown, next, acts, performed, isPending⟩
      rw [takeLines_cons acts performed, List.foldl_cons, ← isPending]
      apply ih
      intro count noneBefore
      apply noCommand (count + 1)
      rw [List.take_succ_cons, List.foldl_cons, ← isPending, noneBefore]

end Repl

/-- Typing a program line by line is the same as running it whole. Let lines without carriage
returns make up a program, let none that starts a new program look like a command, and let the text
be at rest wherever the loop hands over what it has collected.

Then the programs that the loop runs have exactly the forms of the whole, in order. What is shown is
the report of each form, evaluated in the store that the form before it left, and the store that is
left is that of the last one; both are as in running the whole, and nothing is pending. A line
editor that answers with the lines and then has no more sees just this and the prompts. -/
theorem typing_by_lines_runs_the_whole (repl : Repl) (lines : List String) (forms : List Expr)
    (fresh : repl.pending = "") (typable : Repl.Typable lines)
    (parsed : parseForms (textOfLines lines) = .ok forms) :
    let whole := repl.interpreter.runProgram repl.config (textOfLines lines) repl.store
    let runs := repl.interpreter.trace forms repl.store
    let (turns, next) := repl.takeTurns (lines.map .line)
    (∀ count, ∃ before, (repl.takeTurns ((lines.take count).map .line)).2 = .ok before ∧
      before.pending = Repl.pendingAfter (lines.take count)) ∧
    List.flatten <$> (turns.filterMap Repl.Turn.program).mapM parseForms = .ok forms ∧
    repl.interpreter.evaluateExprs forms repl.store =
      (runs.map FormRun.result, storeAfter repl.store runs) ∧
    turns.flatMap Repl.Turn.shown = (runs.flatMap fun run =>
      run.report repl.config :: if repl.config.showTiming then [.elapsed] else []) ∧
    next = .ok { repl with store := storeAfter repl.store runs, pending := "" } ∧
    turns.flatMap Repl.Turn.shown = whole.outputs ∧
    whole.store = storeAfter repl.store runs ∧
    repl.run (lines.map .line) =
      (turns.flatMap Repl.Turn.transcript ++ [.text repl.config.prompt], .finished) := by
  have isRun : repl.interpreter.runProgram repl.config (textOfLines lines) repl.store =
      repl.interpreter.runForms repl.config forms repl.store := by
    rw [Interpreter.runProgram, parsed]
  have ran : repl.Ran forms (repl.takeLines lines) :=
    @Repl.ran_takeLines _ _ [] _ typable rfl fresh parsed
  have traced := repl.interpreter.runForms_eq_trace repl.config forms repl.store
  rw [isRun]
  refine ⟨?_, ran.programs, repl.interpreter.evaluateExprs_eq_trace forms repl.store, ?_, ?_,
    ran.shown, ?_, ?_⟩
  · intro count
    rw [Repl.pendingAfter, ← fresh]
    apply Repl.pending_takeLines
    intro earlier noneBefore line lineMem
    rw [List.getElem?_take, Option.mem_def] at lineMem
    split_ifs at lineMem with inside
    rw [List.take_take, Nat.min_eq_left inside.le, fresh] at noneBefore
    exact typable.noCommand earlier noneBefore line lineMem
  · exact ran.shown.trans (congrArg ProgramRun.outputs traced)
  · have next := ran.next
    rw [traced] at next
    exact next
  · exact congrArg ProgramRun.store traced
  · have next : (repl.takeTurns (lines.map .line)).2 = _ := ran.next
    rw [Repl.run]
    rcases taken : repl.takeTurns (lines.map .line) with ⟨turns, last⟩
    rw [taken] at next
    cases next
    rfl

theorem string_over_two_lines_is_typed :
    let lines := ["(define a nil) 'b ; (", " ", "(list a \"(", ")\"", ":time)", "(car nil)"]
    let repl := Repl.start {}
    let shown := (repl.takeTurns (lines.map .line)).1.flatMap Repl.Turn.shown
    Repl.Typable lines ∧
    parseForms (textOfLines lines) = .ok
      [.define "a" (.literal .nil), .quote (.symbol "b"),
        .list [.symbol "list", .symbol "a", .literal (.string "(\n)"), .symbol ":time"],
        .list [.symbol "car", .literal .nil]] ∧
    shown = (repl.interpreter.runProgram {} (textOfLines lines) repl.store).outputs ∧
    shown = [.text "nil\n", .text "b\n",
      .complaint "\x1b[1;31merror:\x1b[0m Undefined symbol: :time\n",
      .complaint ("\x1b[1;31merror:\x1b[0m Type error in car: " ++
        "expected non-empty list, got nil\n")] := by
  intro lines repl shown
  have typable : Repl.Typable lines := by decide +kernel
  have parsed : parseForms (textOfLines lines) = .ok
      [.define "a" (.literal .nil), .quote (.symbol "b"),
        .list [.symbol "list", .symbol "a", .literal (.string "(\n)"), .symbol ":time"],
        .list [.symbol "car", .literal .nil]] := by
    have isText : textOfLines lines =
        "(define a nil) 'b ; (\n \n(list a \"(\n)\"\n:time)\n(car nil)\n" := by decide
    rw [isText]
    rfl
  have typed := typing_by_lines_runs_the_whole repl lines _ rfl typable parsed
  rcases typed with ⟨_, _, _, reports, _, asWhole, _⟩
  exact ⟨typable, parsed, asWhole, reports.trans (by decide +kernel)⟩

end ExactLisp
