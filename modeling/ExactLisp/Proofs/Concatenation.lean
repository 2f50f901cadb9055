import ExactLisp.Proofs.Relocation

/-!
# Texts one after the other

Two texts with a line feed between them are read as the first and then the second. The line feed
ends whatever word or comment the first text ends in, so the tokens are those of the first text and,
moved behind it, those of the second (`Splits.ofText_append`). The reader has nothing open where the
first text ends, and what it has finished there makes no difference to what it does later
(`Reader.advance_behind`).

Places in the second text move down by the lines of the first, and keep their columns.
-/

namespace ExactLisp

/-! ### Tokens -/

/-- The mode of a scanner that stands further on. -/
def ScanMode.shift (distance : Nat) : ScanMode → ScanMode
  | .gap => .gap
  | .comment => .comment
  | .word start seen => .word (start + distance) seen
  | .text start seen => .text (start + distance) seen
  | .escape start seen => .escape (start + distance) seen
  | .stuck offset => .stuck (offset + distance)

/-- The end of a scan that stands further on. -/
def ScanEnd.shift (distance : Nat) : ScanEnd → ScanEnd
  | .complete offset => .complete (offset + distance)
  | .stuck offset => .stuck (offset + distance)

namespace Scanner

/-- A scanner that stands further on, behind other tokens. -/
def behind (distance : Nat) (before : List Lexeme) (scanner : Scanner) : Scanner :=
  ⟨scanner.mode.shift distance, scanner.offset + distance,
    scanner.found.map (Lexeme.relocate (· + distance)) ++ before⟩

theorem stepGap_behind (distance offset : Nat) (before found : List Lexeme) (c : Char) :
    stepGap (offset + distance) (found.map (Lexeme.relocate (· + distance)) ++ before) c =
      (stepGap offset found c).behind distance before := by
  simp only [stepGap]
  split_ifs <;> simp [behind, ScanMode.shift, Lexeme.relocate, Extent.relocate, Nat.add_right_comm]

/-- What stands before a text makes no difference to how it is scanned. -/
theorem step_behind (distance : Nat) (before : List Lexeme) (scanner : Scanner) (c : Char) :
    (scanner.behind distance before).step c = (scanner.step c).behind distance before := by
  rcases scanner with ⟨mode, offset, found⟩
  cases mode with
  | gap => exact stepGap_behind distance offset before found c
  | comment =>
      simp only [step, behind, ScanMode.shift]
      split_ifs <;> simp [Nat.add_right_comm]
  | word start seen =>
      simp only [step, behind, ScanMode.shift]
      split_ifs with isWord
      · simp [Nat.add_right_comm]
      · exact stepGap_behind distance offset before (wordLexeme start seen offset :: found) c
  | text start seen =>
      simp only [step, behind, ScanMode.shift]
      split_ifs <;> simp [Lexeme.relocate, Extent.relocate, Nat.add_right_comm]
  | escape start seen => simp [step, behind, ScanMode.shift, Nat.add_right_comm]
  | stuck place => simp [step, behind, ScanMode.shift, Nat.add_right_comm]

theorem advance_behind (distance : Nat) (before : List Lexeme) (scanner : Scanner)
    (text : List Char) :
    (scanner.behind distance before).advance text =
      (scanner.advance text).behind distance before := by
  induction text generalizing scanner with
  | nil => rfl
  | cons c text ih =>
      simp only [advance, List.foldl_cons, step_behind]
      exact ih (scanner.step c)

theorem finish_behind (distance : Nat) (before : List Lexeme) (scanner : Scanner) :
    (scanner.behind distance before).finish =
      ⟨before.reverse ++ scanner.finish.lexemes.map (Lexeme.relocate (· + distance)),
        scanner.finish.ending.shift distance⟩ := by
  rcases scanner with ⟨mode, offset, found⟩
  cases mode <;>
    simp [finish, behind, ScanMode.shift, ScanEnd.shift, wordLexeme, Lexeme.relocate,
      Extent.relocate]

/-- A line feed at the end of a complete text leads to a gap, with all its tokens found. -/
theorem step_newline {scanner : Scanner} {lexemes : List Lexeme} {stop : Nat}
    (finished : scanner.finish = ⟨lexemes, .complete stop⟩) :
    scanner.step '\n' = ⟨.gap, stop + 1, lexemes.reverse⟩ := by
  rcases scanner with ⟨mode, offset, found⟩
  cases mode with
  | gap | comment =>
      cases finished
      simp [step, stepGap, isBlankChar]
  | word start seen =>
      cases finished
      have notWord : isWordChar '\n' = false := by decide
      simp [step, stepGap, isBlankChar, notWord]
  | text _ _ | escape _ _ | stuck _ => cases finished

end Scanner

namespace Splits

variable {offset : Nat} {text first second : List Char} {lexemes : List Lexeme}

/-- The tokens of a text lie inside it. -/
theorem bounded (split : Splits offset text lexemes) : ∀ lexeme ∈ lexemes,
    lexeme.extent.start ≤ lexeme.extent.stop ∧ lexeme.extent.stop ≤ offset + text.length := by
  induction split with
  | done => simp
  | blank _ _ ih =>
      intro lexeme lexemeMem
      have inside := ih lexeme lexemeMem
      simp only [List.length_cons]
      omega
  | comment _ _ _ ih =>
      intro lexeme lexemeMem
      have inside := ih lexeme lexemeMem
      simp only [List.length_cons, List.length_append]
      omega
  | token _ _ _ ih =>
      rw [List.forall_mem_cons]
      simp only [List.length_append]
      refine ⟨by omega, ?_⟩
      intro lexeme lexemeMem
      have inside := ih lexeme lexemeMem
      omega

/-- Behind a text that splits and a line feed, scanning starts afresh. -/
theorem advance_append (split : Splits 0 first lexemes) (second : List Char) :
    (Scanner.starting 0).advance (first ++ '\n' :: second) =
      ((Scanner.starting 0).advance second).behind (first.length + 1) lexemes.reverse := by
  have stepped := Scanner.step_newline split.ofText_eq
  rw [Scanner.advance_append, ← Scanner.advance_behind, Scanner.advance, List.foldl_cons, stepped]
  simp [Scanner.behind, Scanner.starting, ScanMode.shift, Scanner.advance]

/-- The scan of two texts with a line feed between them. -/
theorem ofText_append (split : Splits 0 first lexemes) (second : List Char) :
    Scan.ofText (first ++ '\n' :: second) =
      ⟨lexemes ++ (Scan.ofText second).lexemes.map (Lexeme.relocate (· + (first.length + 1))),
        (Scan.ofText second).ending.shift (first.length + 1)⟩ := by
  rw [Scan.ofText, split.advance_append, Scanner.finish_behind, List.reverse_reverse]
  rfl

theorem append {others : List Lexeme} (split : Splits 0 first lexemes)
    (splitSecond : Splits 0 second others) :
    Splits 0 (first ++ '\n' :: second)
      (lexemes ++ others.map (Lexeme.relocate (· + (first.length + 1)))) := by
  have scanned := split.ofText_append second
  rw [splitSecond.ofText_eq] at scanned
  have whole := Splits.of_complete (congrArg Scan.ending scanned)
  rw [scanned] at whole
  exact whole

theorem of_append {whole : List Lexeme} (split : Splits 0 first lexemes)
    (splitWhole : Splits 0 (first ++ '\n' :: second) whole) :
    ∃ others, Splits 0 second others ∧
      whole = lexemes ++ others.map (Lexeme.relocate (· + (first.length + 1))) := by
  have scanned := (split.ofText_append second).symm.trans splitWhole.ofText_eq
  rw [Scan.mk.injEq] at scanned
  cases ending : (Scan.ofText second).ending with
  | complete stop => exact ⟨_, Splits.of_complete ending, scanned.1.symm⟩
  | stuck place =>
      rw [ending] at scanned
      cases scanned.2

end Splits

/-! ### Forms -/

namespace Reader

/-- A reader that has finished more forms before. -/
def behind (before : List Form) (reader : Reader) : Reader :=
  ⟨reader.opened, reader.finished ++ before⟩

theorem attach_behind (before finished : List Form) (form : Form) (opened : List Opened) :
    attach (finished ++ before) form opened = (attach finished form opened).behind before := by
  induction opened generalizing form with
  | nil => rfl
  | cons innermost opened ih =>
      cases innermost with
      | list start items => rfl
      | mark start mark => exact ih _

theorem expects_behind (before : List Form) (reader : Reader) :
    (reader.behind before).expects .program = reader.expects .program := by
  rcases reader with ⟨opened, finished⟩
  cases opened with
  | nil => rfl
  | cons innermost opened => simp only [behind, expects_opened]

/-- What a program has brought before makes no difference to what is read. -/
theorem step_behind (before : List Form) (reader : Reader) (lexeme : Lexeme) :
    (reader.behind before).step .program lexeme =
      behind before <$> reader.step .program lexeme := by
  rcases lexeme with ⟨token, extent⟩
  rcases reader with ⟨opened, finished⟩
  have sameMisread : ∀ offset, (behind before ⟨opened, finished⟩).misread .program offset =
      (⟨opened, finished⟩ : Reader).misread .program offset := by
    intro offset
    simp only [misread, expects_behind]
  have awaits : (⟨opened, finished⟩ : Reader).expects .program ≠ .finish := by
    cases opened <;> simp [expects]
  simp only [step, expects_behind, sameMisread, if_neg awaits]
  simp only [behind]
  cases token with
  | opening => rfl
  | mark mark => rfl
  | word run => simp only [attach_behind]; rfl
  | text raw => simp only [attach_behind]; rfl
  | closing =>
      cases opened with
      | nil => rfl
      | cons innermost opened =>
          cases innermost with
          | list start items => simp only [attach_behind]; rfl
          | mark start mark => rfl

theorem advance_behind (before : List Form) (reader : Reader) (lexemes : List Lexeme) :
    (reader.behind before).advance .program lexemes =
      behind before <$> reader.advance .program lexemes := by
  induction lexemes generalizing reader with
  | nil => rfl
  | cons lexeme lexemes ih =>
      simp only [advance, List.foldlM_cons, step_behind]
      cases reader.step .program lexeme with
      | error misread => rfl
      | ok next => exact ih next

end Reader

namespace Form

theorem WrittenEach.of_append {first forms : List Form} {lexemes others : List Lexeme}
    (written : WrittenEach first lexemes) (writtenAll : WrittenEach forms (lexemes ++ others)) :
    ∃ second, forms = first ++ second ∧ WrittenEach second others := by
  have read := Reader.advance_writtenEach writtenAll []
  rw [Reader.advance_append, Reader.advance_writtenEach written []] at read
  have behind : (⟨[], first.reverse ++ []⟩ : Reader) = Reader.initial.behind first.reverse := by
    simp [Reader.behind, Reader.initial]
  simp only [Except.bind, behind, Reader.advance_behind] at read
  rcases map_eq_ok_iff.mp read with ⟨⟨opened, finished⟩, advanced, isRead⟩
  simp only [Reader.behind, List.append_nil, Reader.mk.injEq] at isRead
  rcases isRead with ⟨rfl, isRead⟩
  have started : Reader.initial.Holds [] := ⟨[], [], rfl, .nil, .nothing⟩
  rcases started.advance advanced with ⟨done, pending, isAll, writtenSecond, openedAs⟩
  cases openedAs
  rw [List.append_nil, List.nil_append] at isAll
  subst isAll
  refine ⟨finished.reverse, ?_, writtenSecond⟩
  have reversed := congrArg List.reverse isRead
  simpa using reversed.symm

end Form

/-- Two texts with a line feed between them are read as the forms of both. -/
theorem readForms_append {first second : List Char} {forms others : List Form}
    (isRead : readForms .program first = .ok forms)
    (isReadSecond : readForms .program second = .ok others) :
    readForms .program (first ++ '\n' :: second) =
      .ok (forms ++ others.map (Form.relocate (· + (first.length + 1)))) := by
  rcases readForms_eq_ok_iff.mp isRead with ⟨lexemes, split, written, _⟩
  rcases readForms_eq_ok_iff.mp isReadSecond with ⟨otherLexemes, splitSecond, writtenSecond, _⟩
  apply readForms_eq_ok_iff.mpr
  exact ⟨_, split.append splitSecond, written.append (writtenSecond.relocate _), by simp⟩

/-- If the first of two texts can be read, the second can be if both together can be. -/
theorem readForms_of_append {first second : List Char} {forms whole : List Form}
    (isRead : readForms .program first = .ok forms)
    (isReadWhole : readForms .program (first ++ '\n' :: second) = .ok whole) :
    ∃ others, readForms .program second = .ok others := by
  rcases readForms_eq_ok_iff.mp isRead with ⟨lexemes, split, written, _⟩
  rcases readForms_eq_ok_iff.mp isReadWhole with ⟨wholeLexemes, splitWhole, writtenWhole, _⟩
  rcases split.of_append splitWhole with ⟨otherLexemes, splitSecond, rfl⟩
  rcases written.of_append writtenWhole with ⟨others, _, writtenSecond⟩
  -- moved back to where the second text starts on its own
  have writtenAlone := writtenSecond.relocate (· - (first.length + 1))
  have sameLexemes : (otherLexemes.map (Lexeme.relocate (· + (first.length + 1)))).map
      (Lexeme.relocate (· - (first.length + 1))) = otherLexemes := by
    simp [Function.comp_def, Lexeme.relocate, Extent.relocate]
  rw [sameLexemes] at writtenAlone
  exact ⟨_, readForms_eq_ok_iff.mpr ⟨_, splitSecond, writtenAlone, by simp⟩⟩

/-! ### Faults -/

theorem Form.toCodes_relocate (move : Nat → Nat) (forms : List Form) :
    toCodes (forms.map (relocate move)) = (toCodes forms).mapError (Fault.relocate move) :=
  toCodes_relocate_of fun form _ => (form.toCode_relocate move).1

theorem Form.toCodes_append (first second : List Form) :
    toCodes (first ++ second) = (do
      let exprs ← toCodes first
      let others ← toCodes second
      return exprs ++ others) := by
  simp only [toCodes_eq_mapM, List.mapM_append]

/-- A fault lies inside the text that its form was read from. -/
theorem Fault.inside {source : List Char} {forms : List Form} {fault : Fault}
    (isRead : readForms .program source = .ok forms) (failed : Form.toCodes forms = .error fault) :
    fault.extent.start ≤ source.length ∧ fault.extent.stop ≤ source.length := by
  rcases readForms_eq_ok_iff.mp isRead with ⟨lexemes, split, written, _⟩
  -- cutting all offsets off at the end of the text changes no token, hence no form and no fault
  have sameLexemes : lexemes.map (Lexeme.relocate (min source.length)) = lexemes := by
    conv_rhs => rw [← List.map_id lexemes]
    apply List.map_congr_left
    rintro ⟨token, start, stop⟩ lexemeMem
    have inside := split.bounded _ lexemeMem
    simp only [Nat.zero_add] at inside
    simp only [Lexeme.relocate, Extent.relocate, id_eq, Lexeme.mk.injEq, Extent.mk.injEq, true_and]
    omega
  have cut := written.relocate (min source.length)
  rw [sameLexemes] at cut
  have sameFault := Form.toCodes_relocate (min source.length) forms
  rw [cut.unique written, failed] at sameFault
  simp only [mapError_error, Except.error.injEq] at sameFault
  have sameExtent := congrArg Fault.extent sameFault
  have sameStart := congrArg Extent.start sameExtent
  have sameStop := congrArg Extent.stop sameExtent
  simp only [Fault.relocate, Extent.relocate] at sameStart sameStop
  omega

/-! ### Places -/

namespace Position

/-- The place some lines further down, in the same column. -/
def lower (lines : Nat) (position : Position) : Position :=
  ⟨position.line + lines, position.column⟩

theorem advanceOver_lower (lines : Nat) (position : Position) (text : List Char) :
    (position.lower lines).advanceOver text = (position.advanceOver text).lower lines := by
  induction text generalizing position with
  | nil => rfl
  | cons c text ih =>
      have stepped : (position.lower lines).advance c = (position.advance c).lower lines := by
        simp only [advance, lower]
        split
        · simp [Nat.add_right_comm]
        · rfl
      simp only [advanceOver, List.foldl_cons, stepped]
      exact ih (position.advance c)

theorem line_advanceOver (position : Position) (text : List Char) :
    (position.advanceOver text).line = position.line + text.count '\n' := by
  induction text generalizing position with
  | nil => rfl
  | cons c text ih =>
      have stepped := ih (position.advance c)
      simp only [advanceOver, List.foldl_cons] at stepped ⊢
      rw [stepped, advance, List.count_cons]
      by_cases isFeed : c = '\n'
      · simp [isFeed]
        omega
      · simp [isFeed]

/-- Behind a text and a line feed, places are those of the second text, further down. -/
theorem ofOffset_append (first second : List Char) (offset : Nat) :
    ofOffset (first ++ '\n' :: second) (offset + (first.length + 1)) =
      (ofOffset second offset).lower (first.count '\n' + 1) := by
  have taken : (first ++ '\n' :: second).take (offset + (first.length + 1)) =
      first ++ ['\n'] ++ second.take offset := by
    rw [List.append_cons, List.take_append, List.take_of_length_le (by simp)]
    simp
  have afterFirst : origin.advanceOver (first ++ ['\n']) =
      origin.lower (first.count '\n' + 1) := by
    rw [advanceOver_append]
    have line := line_advanceOver origin first
    simp only [advanceOver, List.foldl_cons, List.foldl_nil, advance, if_true] at line ⊢
    simp [lower, line, Nat.add_assoc]
    rfl
  rw [ofOffset, taken, advanceOver_append, afterFirst, advanceOver_lower]
  rfl

end Position

/-- A span some lines further down. -/
def Span.lower (lines : Nat) (span : Span) : Span :=
  ⟨span.start.lower lines, span.stop.lower lines, span.text⟩

theorem Extent.locate_append_left {first rest : List Char} {extent : Extent}
    (inside : extent.start ≤ first.length ∧ extent.stop ≤ first.length) :
    extent.locate (first ++ rest) = extent.locate first := by
  simp only [locate, slice, Position.ofOffset]
  rw [List.take_append_of_le_length inside.1, List.take_append_of_le_length inside.2,
    List.drop_append_of_le_length inside.1, List.take_append_of_le_length]
  simp only [List.length_drop]
  omega

theorem Extent.locate_append_right (first second : List Char) (extent : Extent) :
    (extent.relocate (· + (first.length + 1))).locate (first ++ '\n' :: second) =
      (extent.locate second).lower (first.count '\n' + 1) := by
  simp only [locate, relocate, Span.lower, Position.ofOffset_append, Span.mk.injEq, true_and]
  simp only [slice]
  rw [Nat.add_sub_add_right, Nat.add_comm extent.start, ← List.drop_drop, List.append_cons]
  simp

/-! ### Parsing -/

/-- A text is no sequence of forms. -/
def Malformed (source : String) : Prop :=
  ∃ position line expectation,
    parseForms source = .error (.malformed position line expectation)

theorem not_malformed_iff {source : String} :
    ¬Malformed source ↔ ∃ forms, readForms .program source.toList = .ok forms := by
  rw [← parseText_accepts_iff]
  simp only [Malformed, parseForms, not_exists]

theorem not_malformed_of_parsed {source : String} {forms : List Expr}
    (parsed : parseForms source = .ok forms) : ¬Malformed source := by
  rintro ⟨position, line, expectation, failed⟩
  rw [parsed] at failed
  cases failed

theorem parseForms_of_read {source : String} {forms : List Form}
    (isRead : readForms .program source.toList = .ok forms) :
    parseForms source = (Form.toCodes forms).mapError (ParseError.ofFault source.toList) := by
  simp only [parseForms, parseText, isRead]
  cases Form.toCodes forms <;> rfl

theorem parseExpression_accepts_iff {source : String} :
    (∀ position line expectation,
      parseExpression source ≠ .error (.malformed position line expectation)) ↔
      ∃ forms, readForms .single source.toList = .ok forms := by
  simp only [Ne, parseExpression, map_eq_error_iff]
  exact parseText_accepts_iff

theorem parseExpression_eq_of_read {source : String} {form : Form}
    (isRead : readForms .single source.toList = .ok [form]) :
    parseExpression source = form.toCode.mapError (ParseError.ofFault source.toList) := by
  rw [parseExpression, parseText, isRead]
  simp only [Form.toCodes]
  cases form.toCode <;> rfl

/-- An error some lines further down. -/
def ParseError.lower (lines : Nat) : ParseError → ParseError
  | malformed position line expectation => malformed (position.lower lines) line expectation
  | faulty problem span => faulty problem (span.lower lines)

theorem toList_newline (first second : String) :
    (first ++ "\n" ++ second).toList = first.toList ++ '\n' :: second.toList := by
  simp

theorem malformed_of_append {first second : String} (readable : ¬Malformed first)
    (malformed : Malformed second) : Malformed (first ++ "\n" ++ second) := by
  by_contra accepted
  rcases not_malformed_iff.mp readable with ⟨forms, isRead⟩
  rcases not_malformed_iff.mp accepted with ⟨whole, isReadWhole⟩
  rw [toList_newline] at isReadWhole
  exact not_malformed_iff.mpr (readForms_of_append isRead isReadWhole) malformed

/-- Two texts with a line feed between them are parsed one after the other. -/
theorem parseForms_append {first second : String} (readable : ¬Malformed first)
    (readableSecond : ¬Malformed second) :
    parseForms (first ++ "\n" ++ second) = (do
      let forms ← parseForms first
      let others ← (parseForms second).mapError (.lower (first.toList.count '\n' + 1))
      return forms ++ others) := by
  rcases not_malformed_iff.mp readable with ⟨forms, isRead⟩
  rcases not_malformed_iff.mp readableSecond with ⟨others, isReadSecond⟩
  have isReadWhole := readForms_append isRead isReadSecond
  rw [← toList_newline] at isReadWhole
  rw [parseForms_of_read isReadWhole, parseForms_of_read isRead, parseForms_of_read isReadSecond,
    Form.toCodes_append, Form.toCodes_relocate, toList_newline]
  cases parsed : Form.toCodes forms with
  | error fault =>
      have inside := Fault.inside isRead parsed
      have located := @Extent.locate_append_left _ ('\n' :: second.toList) _ inside
      show Except.error (ParseError.ofFault _ fault) = Except.error (ParseError.ofFault _ fault)
      simp only [ParseError.ofFault, located]
  | ok exprs =>
      cases parsedSecond : Form.toCodes others with
      | error fault =>
          have located := Extent.locate_append_right first.toList second.toList fault.extent
          show Except.error (ParseError.ofFault _ (fault.relocate _)) =
            Except.error (ParseError.lower _ (ParseError.ofFault _ fault))
          simp only [ParseError.ofFault, ParseError.lower, Fault.relocate, located]
      | ok otherExprs => rfl

/-- Parsing respects concatenation. Let a text that is a sequence of forms be followed by a line
feed and a second text. If the second is malformed, so is the whole. Otherwise a fault of the first
text is the fault of the whole, with the same span. Otherwise a fault of the second is, with its
span moved down by the lines of the first and its columns and its text unchanged. Otherwise the
whole is the forms of the first followed by those of the second. -/
theorem parsing_respects_concatenation (first second : String) (readable : ¬Malformed first) :
    (Malformed second → Malformed (first ++ "\n" ++ second)) ∧
    (¬Malformed second →
      (∀ error, parseForms first = .error error →
        parseForms (first ++ "\n" ++ second) = .error error) ∧
      ∀ forms, parseForms first = .ok forms →
        (∀ error, parseForms second = .error error → ∃ problem span,
          error = .faulty problem span ∧ parseForms (first ++ "\n" ++ second) =
            .error (.faulty problem
              { start := ⟨span.start.line + (first.toList.count '\n' + 1), span.start.column⟩
                stop := ⟨span.stop.line + (first.toList.count '\n' + 1), span.stop.column⟩
                text := span.text })) ∧
        ∀ others, parseForms second = .ok others →
          parseForms (first ++ "\n" ++ second) = .ok (forms ++ others)) := by
  refine ⟨malformed_of_append readable, ?_⟩
  intro readableSecond
  rw [parseForms_append readable readableSecond]
  refine ⟨?_, ?_⟩
  · intro error failed
    rw [failed]
    rfl
  · intro forms parsed
    rw [parsed]
    refine ⟨?_, ?_⟩
    · intro error failed
      rw [failed]
      cases error with
      | malformed position line expectation =>
          exact absurd ⟨position, line, expectation, failed⟩ readableSecond
      | faulty problem span => exact ⟨problem, span, rfl, rfl⟩
    · intro others parsedSecond
      rw [parsedSecond]
      rfl

theorem fault_behind_a_comment_and_two_lines :
    ¬Malformed "(f ; (\r\n x)\r" ∧
    parseForms "1\n '(\"\\q\")" =
      .error (.faulty (.escape 'q') ⟨⟨2, 4⟩, ⟨2, 8⟩, "\"\\q\""⟩) ∧
    parseForms ("(f ; (\r\n x)\r" ++ "\n" ++ "1\n '(\"\\q\")") =
      .error (.faulty (.escape 'q') ⟨⟨4, 4⟩, ⟨4, 8⟩, "\"\\q\""⟩) := by
  have parsed : parseForms "(f ; (\r\n x)\r" = .ok [.list [.symbol "f", .symbol "x"]] := by rfl
  have failed : parseForms "1\n '(\"\\q\")" =
      .error (.faulty (.escape 'q') ⟨⟨2, 4⟩, ⟨2, 8⟩, "\"\\q\""⟩) := by rfl
  have readable := not_malformed_of_parsed parsed
  have readableSecond : ¬Malformed "1\n '(\"\\q\")" := by
    rintro ⟨position, line, expectation, malformed⟩
    rw [failed] at malformed
    cases malformed
  have both := (parsing_respects_concatenation _ _ readable).2 readableSecond
  rcases (both.2 _ parsed).1 _ failed with ⟨problem, span, isError, whole⟩
  cases isError
  exact ⟨readable, failed, whole⟩

end ExactLisp
