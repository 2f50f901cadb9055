import ExactLisp.Proofs.GoodPrefixes
import ExactLisp.Proofs.GrammarRules

/-!
# The texts that are accepted

The grammar, applied to a text, takes what the reader reads, and its tree is that of the forms that
are read (`Peg.matches_whole_iff`). The grammar descends into forms and the reader keeps a stack of
what is open, so the two are compared at the beginning of a form: either both find the same form
there and go on at the same place, or neither does (`Peg.ReadAlike`). The comparison is by induction
over the length of the text that is left.
-/

namespace ExactLisp

/-- The rule that takes a mark and its form. -/
def Mark.rule : Mark → Peg.RuleName
  | quote => .quoted
  | unquote => .unquoted

mutual

/-- The tree of a form. -/
def Form.tree : Form → Peg.Tree Peg.RuleName
  | .word extent run => .node (Word.ofRun run).rule extent []
  | .text extent raw => .node .string extent
      [.node .stringInner ⟨extent.start + 1, extent.start + 1 + raw.length⟩ []]
  | .marked extent mark form => .node mark.rule extent [form.tree]
  | .list extent items => .node .list extent (Form.trees items)

/-- The trees of forms. -/
def Form.trees : List Form → List (Peg.Tree Peg.RuleName)
  | [] => []
  | form :: forms => form.tree :: Form.trees forms

end

/-- The rule that takes a whole text. -/
def Goal.rule : Goal → Peg.RuleName
  | program => .program
  | single => .single

/-- The tree of a whole text of some length: those of its forms, and the end. -/
def Goal.tree (goal : Goal) (length : Nat) (forms : List Form) : Peg.Tree Peg.RuleName :=
  .node goal.rule ⟨0, length⟩ (Form.trees forms ++ [.node .endOfInput ⟨length, length⟩ []])

/-- What the rule for whole texts does with a text of some length, given what is read from it. -/
def Goal.outcome (goal : Goal) (length : Nat) :
    Except Misread (List Form) → Option (Peg.Match Peg.RuleName)
  | .ok forms => some ⟨length, [], [goal.tree length forms]⟩
  | .error _ => none

/-! ### Reading on -/

/-- What the scanner has found before makes no difference to what it finds. -/
theorem Scanner.finish_advance_found (offset : Nat) (found : List Lexeme) (text : List Char) :
    ((⟨.gap, offset, found⟩ : Scanner).advance text).finish =
      ⟨found.reverse ++ ((Scanner.starting offset).advance text).finish.lexemes,
        ((Scanner.starting offset).advance text).finish.ending⟩ := by
  have same : (⟨.gap, offset, found⟩ : Scanner) = (Scanner.starting offset).behind 0 found := by
    simp [behind, starting, ScanMode.shift]
  have unmoved : Lexeme.relocate (· + 0) = id := rfl
  rw [same, advance_behind, finish_behind, unmoved, List.map_id]
  congr 1
  generalize ((Scanner.starting offset).advance text).finish.ending = ending
  cases ending <;> rfl

namespace Reader

/-- Reads what is left of a text. -/
def readFrom (goal : Goal) (reader : Reader) (offset : Nat) (text : List Char) :
    Except Misread (List Form) :=
  let scan := ((Scanner.starting offset).advance text).finish
  (reader.advance goal scan.lexemes).bind fun next => next.finish goal scan.ending

variable {goal : Goal} {reader next : Reader} {offset stop : Nat} {text left rest : List Char}
  {lexemes : List Lexeme}

theorem readFrom_reaches (reader : Reader) (reaches : Reaches stop left offset text lexemes) :
    reader.readFrom goal offset text =
      (reader.advance goal lexemes).bind fun next => next.readFrom goal stop left := by
  have scanned := reaches.finish_advance []
  rw [List.append_nil, Scanner.finish_advance_found stop, List.reverse_reverse] at scanned
  have isScan : ((Scanner.starting offset).advance text).finish = _ := scanned
  rw [readFrom, isScan]
  simp only [advance_append]
  cases reader.advance goal lexemes <;> rfl

theorem readFrom_gap (reader : Reader) (reaches : Reaches stop left offset text []) :
    reader.readFrom goal offset text = reader.readFrom goal stop left :=
  reader.readFrom_reaches reaches

/-- A token is taken first, wherever a text starts with one. -/
theorem readFrom_token {token : Token} {spelling : List Char} (reader : Reader)
    (spelled : token.Spelled spelling)
    (maximal : ∀ run, token = .word run → ∀ c ∈ rest.head?, isWordChar c = false) :
    reader.readFrom goal offset (spelling ++ rest) =
      (reader.step goal ⟨token, ⟨offset, offset + spelling.length⟩⟩).bind fun next =>
        next.readFrom goal (offset + spelling.length) rest := by
  rw [reader.readFrom_reaches (.token spelled maximal .here)]
  cases stepped : reader.step goal ⟨token, ⟨offset, offset + spelling.length⟩⟩ with
  | error misread => simp [advance, List.foldlM_cons, stepped]
  | ok next => rw [advance_cons_of_step stepped]; rfl

theorem readFrom_char {token : Token} {c : Char} (reader : Reader) (spelled : token.Spelled [c])
    (notWord : ∀ run, token ≠ .word run) :
    reader.readFrom goal offset (c :: rest) =
      (reader.step goal ⟨token, ⟨offset, offset + 1⟩⟩).bind fun next =>
        next.readFrom goal (offset + 1) rest :=
  reader.readFrom_token spelled fun run isWord => absurd isWord (notWord run)

/-- A closing parenthesis is refused where no list is open. -/
theorem readFrom_closing (isClosing : text.head? = some ')')
    (noList : ∀ start items outer, reader.opened ≠ .list start items :: outer) :
    ∃ misread, reader.readFrom goal offset text = .error misread := by
  rcases List.head?_eq_some_iff.mp isClosing with ⟨rest, rfl⟩
  have refused : ∃ misread,
      reader.step goal ⟨.closing, ⟨offset, offset + 1⟩⟩ = .error misread := by
    rcases reader with ⟨_ | ⟨_ | _, outer⟩, finished⟩
    · simp only [step]
      split <;> exact ⟨_, rfl⟩
    · exact absurd rfl (noList _ _ _)
    · simp only [step]
      split <;> exact ⟨_, rfl⟩
  rcases refused with ⟨misread, refused⟩
  refine ⟨misread, ?_⟩
  rw [reader.readFrom_char .closing (by simp), refused]
  rfl

/-- The reader takes any number of forms: a list is open, or a program is asked for. -/
def Collects (goal : Goal) (reader : Reader) : Prop :=
  match reader.opened with
  | [] => goal = .program
  | .list .. :: _ => True
  | .mark .. :: _ => False

/-- The reader behind some forms. -/
def collect (reader : Reader) (forms : List Form) : Reader :=
  forms.foldl (fun reader form => attach reader.finished form reader.opened) reader

theorem Collects.attach (collects : reader.Collects goal) (form : Form) :
    (attach reader.finished form reader.opened).Collects goal := by
  rcases reader with ⟨_ | ⟨_ | _, outer⟩, finished⟩
  · exact collects
  · trivial
  · exact collects.elim

theorem Collects.awaits (collects : reader.Collects goal) : reader.expects goal ≠ .finish := by
  rcases reader with ⟨_ | ⟨_ | _, outer⟩, finished⟩
  · cases collects
    simp [expects]
  · simp [expects_opened]
  · simp [expects_opened]

theorem collect_list (start : Nat) (items : List Form) (outer : List Opened)
    (finished forms : List Form) :
    collect ⟨.list start items :: outer, finished⟩ forms =
      ⟨.list start (forms.reverse ++ items) :: outer, finished⟩ := by
  induction forms generalizing items with
  | nil => rfl
  | cons form forms ih =>
      rw [List.reverse_cons, List.append_assoc]
      exact ih (form :: items)

theorem collect_top (finished forms : List Form) :
    collect ⟨[], finished⟩ forms = ⟨[], forms.reverse ++ finished⟩ := by
  induction forms generalizing finished with
  | nil => rfl
  | cons form forms ih =>
      rw [List.reverse_cons, List.append_assoc]
      exact ih (form :: finished)

theorem readFrom_stuck {place : Nat} (reader : Reader)
    (stuck : ((Scanner.starting offset).advance text).finish = ⟨[], .stuck place⟩) :
    ∃ misread, reader.readFrom goal offset text = .error misread := by
  rw [readFrom, stuck]
  exact ⟨_, rfl⟩

end Reader

namespace Peg

variable {offset middle stop : Nat} {text gap rest left run : List Char}
  {first second : Pattern RuleName} {trees more : List (Tree RuleName)}

/-! ### Forms -/

/-- Where no form begins, the text ends, or a list, or nothing can be read from there. -/
def Stops (offset : Nat) (text : List Char) : Prop :=
  text = [] ∨ text.head? = some ')' ∨ ∀ (goal : Goal) (reader : Reader),
    reader.expects goal ≠ .finish → ∃ misread, reader.readFrom goal offset text = .error misread

/-- Where no form begins, none can be read that is awaited, unless a list is open. -/
theorem Stops.misread {goal : Goal} {reader : Reader} (stops : Stops offset text)
    (awaits : reader.expects goal = .form)
    (noList : ∀ start items outer, reader.opened ≠ .list start items :: outer) :
    ∃ misread, reader.readFrom goal offset text = .error misread := by
  rcases stops with rfl | isClosing | isError
  · refine ⟨reader.misread goal offset, ?_⟩
    change reader.finish goal (.complete offset) = _
    simp [Reader.finish, awaits]
  · exact Reader.readFrom_closing isClosing noList
  · exact isError goal reader (by simp [awaits])

/-- The grammar and the reader find the same form at the beginning of a text and go on at the same
place, or neither finds one. -/
inductive ReadAlike (offset : Nat) (text : List Char) : Prop where
  | form {form : Form} {left : List Char} (shorter : left.length < text.length)
      (matched : Matches grammar .free (.rule .expression) offset text
        (some ⟨form.extent.stop, left, [form.tree]⟩))
      (read : ∀ (goal : Goal) (reader : Reader), reader.expects goal ≠ .finish →
        reader.readFrom goal offset text =
          (Reader.attach reader.finished form reader.opened).readFrom goal form.extent.stop left)
  | noForm (refused : Matches grammar .free (.rule .expression) offset text none)
      (stops : Stops offset text)

/-- A form of one token is read alike. -/
theorem readAlike_token {token : Token} {spelling : List Char} {form : Form}
    (spelled : token.Spelled spelling)
    (maximal : ∀ run, token = .word run → ∀ c ∈ rest.head?, isWordChar c = false)
    (written : form.Written [⟨token, ⟨offset, offset + spelling.length⟩⟩])
    (isStop : form.extent.stop = offset + spelling.length)
    (matched : Matches grammar .free (.rule .expression) offset (spelling ++ rest)
      (some ⟨offset + spelling.length, rest, [form.tree]⟩)) :
    ReadAlike offset (spelling ++ rest) := by
  refine @ReadAlike.form offset _ form rest ?_ (isStop ▸ matched) ?_
  · have nonempty := List.length_pos_of_ne_nil spelled.ne_nil
    rw [List.length_append]
    omega
  · intro goal reader awaits
    rw [reader.readFrom_reaches (.token spelled maximal .here), isStop]
    have taken := Reader.advance_written written awaits []
    rw [List.append_nil] at taken
    rw [taken]
    rfl

theorem matches_only_first {outcome : Option (Match RuleName)}
    (matched : Matches grammar .free first offset text outcome)
    (refuses : Matches grammar .free second offset text none) :
    Matches grammar .free (first <|> second) offset text outcome := by
  cases outcome with
  | none => exact .choice_second matched refuses
  | some taken => exact .choice_first matched

theorem matches_mark {mark : Mark} {c : Char} (spelled : (Token.mark mark).Spelled [c])
    {outcome : Option (Match RuleName)}
    (matched : Matches grammar .free (.rule mark.rule) offset (c :: text) outcome) :
    Matches grammar .free (.rule .expression) offset (c :: text) outcome := by
  have others : c ≠ '(' → c ≠ '"' → isWordChar c = false → Matches grammar .free
      (.rule .list <|> .rule .literal <|> .rule .symbol) offset (c :: text) none := by
    intro notList notText notWord
    exact .choice_second (refuses_list (by simpa using notList) _)
      (.choice_second (refuses_literal (by simpa using notText) (by simpa using notWord) _)
        (refuses_symbol (by simpa using notWord) _))
  apply matches_silent rfl
  cases spelled with
  | quote =>
      refine matches_only_first matched (.choice_second (refuses_unquoted (by simp) _) ?_)
      exact others (by decide) (by decide) rfl
  | unquote =>
      refine .choice_second (refuses_quoted (by simp) _) (matches_only_first matched ?_)
      exact others (by decide) (by decide) rfl

theorem matches_list {outcome : Option (Match RuleName)}
    (matched : Matches grammar .free (.rule .list) offset ('(' :: text) outcome) :
    Matches grammar .free (.rule .expression) offset ('(' :: text) outcome := by
  have notWord : ∀ c ∈ ('(' :: text).head?, isWordChar c = false := by
    rintro _ ⟨⟩
    rfl
  refine matches_silent rfl (.choice_second (refuses_quoted (by simp) _)
    (.choice_second (refuses_unquoted (by simp) _) (matches_only_first matched ?_)))
  exact .choice_second (refuses_literal (by simp) notWord _) (refuses_symbol notWord _)

/-- A mark is read with the form behind it. -/
theorem readAlike_mark {mark : Mark} {c : Char} (spelled : (Token.mark mark).Spelled [c])
    (ih : ∀ offset rest, rest.length < (c :: text).length → NoGap rest → ReadAlike offset rest) :
    ReadAlike offset (c :: text) := by
  rcases exists_gap text with ⟨gap, rest, rfl, noGap, skips, reaches⟩
  have read : ∀ (goal : Goal) (reader : Reader), reader.expects goal ≠ .finish →
      reader.readFrom goal offset (c :: (gap ++ rest)) =
        (⟨.mark offset mark :: reader.opened, reader.finished⟩ : Reader).readFrom goal
          (offset + 1 + gap.length) rest := by
    intro goal reader awaits
    have taken : reader.step goal ⟨.mark mark, ⟨offset, offset + 1⟩⟩ =
        .ok ⟨.mark offset mark :: reader.opened, reader.finished⟩ := by
      simp [Reader.step, awaits]
    rw [reader.readFrom_char spelled (by simp), taken]
    exact Reader.readFrom_gap _ (reaches (offset + 1))
  have shorter : rest.length < (c :: (gap ++ rest)).length := by
    rw [List.length_cons, List.length_append]
    omega
  cases ih (offset + 1 + gap.length) rest shorter noGap with
  | @form form left shorterLeft matched readForm =>
      refine @ReadAlike.form offset _ (.marked ⟨offset, form.extent.stop⟩ mark form) left
        (by omega) (matches_mark spelled ?_) ?_
      · cases spelled with
        | quote => exact .rule (matches_mul (Takes.literal "'" offset) skips matched)
        | unquote => exact .rule (matches_mul (Takes.literal "," offset) skips matched)
      · intro goal reader awaits
        rw [read goal reader awaits, readForm goal _ (by simp [Reader.expects_opened])]
        rfl
  | noForm refused stops =>
      refine .noForm (matches_mark spelled ?_) (Or.inr (Or.inr ?_))
      · cases spelled with
        | quote =>
            exact .rule_refuses (matches_mul_refuses (Takes.literal "'" offset) skips refused)
        | unquote =>
            exact .rule_refuses (matches_mul_refuses (Takes.literal "," offset) skips refused)
      · intro goal reader awaits
        rw [read goal reader awaits]
        exact stops.misread (Reader.expects_opened ..) (by simp)

theorem matches_string {outcome : Option (Match RuleName)}
    (matched : Matches grammar .free (.rule .string) offset ('"' :: text) outcome) :
    Matches grammar .free (.rule .expression) offset ('"' :: text) outcome := by
  have notWord : ∀ c ∈ ('"' :: text).head?, isWordChar c = false := by
    rintro _ ⟨⟩
    rfl
  rcases refuses_words notWord with ⟨notFloat, notInteger, notBoolean, notNil⟩
  have isLiteral : Matches grammar .free (.rule .literal) offset ('"' :: text) outcome := by
    refine matches_silent rfl (.choice_second (notFloat _) (.choice_second (notInteger _) ?_))
    exact matches_only_first matched (.choice_second (notBoolean _) (notNil _))
  refine matches_silent rfl (.choice_second (refuses_quoted (by simp) _)
    (.choice_second (refuses_unquoted (by simp) _) (.choice_second (refuses_list (by simp) _) ?_)))
  exact matches_only_first isLiteral (refuses_symbol notWord _)

/-- A string literal is read alike: where it is not closed, nothing is. -/
theorem readAlike_text (offset : Nat) (text : List Char) : ReadAlike offset ('"' :: text) := by
  rcases exists_textBody text with ⟨raw, rest, rfl, body, ended⟩
  have held : Mode.compound ≠ .free := by simp
  have inner : Matches grammar .compound (.rule .stringInner) (offset + 1) (raw ++ rest)
      (some ⟨offset + 1 + raw.length, rest,
        [.node .stringInner ⟨offset + 1, offset + 1 + raw.length⟩ []]⟩) :=
    .rule (Takes.stringInner held_atomic body ended (offset + 1))
  have opened : Matches grammar .compound (.literal "\"" * .rule .stringInner) offset
      ('"' :: (raw ++ rest)) (some ⟨offset + 1 + raw.length, rest,
        [.node .stringInner ⟨offset + 1, offset + 1 + raw.length⟩ []]⟩) :=
    .seq (Takes.literal "\"" offset) (.seq (.gap_held held) inner)
  by_cases isClosed : rest.head? = some '"'
  · rcases List.head?_eq_some_iff.mp isClosed with ⟨left, rfl⟩
    have stopEq : offset + ('"' :: (raw ++ ['"'])).length = offset + 1 + raw.length + 1 := by
      simp only [List.length_cons, List.length_append, List.length_nil]
      omega
    have isText : '"' :: (raw ++ '"' :: left) = '"' :: (raw ++ ['"']) ++ left := by simp
    rw [isText]
    refine readAlike_token (.text body) (by simp) .text rfl ?_
    rw [← isText, stopEq]
    refine matches_string (.rule ?_)
    exact .seq opened (.seq (.gap_held held) (Takes.literal "\"" _))
  · refine .noForm (matches_string (.rule_refuses ?_)) (Or.inr (Or.inr ?_))
    · refine .seq_refuses_second opened (.seq_refuses_second (.gap_held held) ?_)
      refine Refuses.literal '"' rfl ?_ _
      rintro c isHead rfl
      exact isClosed isHead
    · intro goal reader _
      have opens : (Scanner.starting offset).step '"' = ⟨.text offset [], offset + 1, []⟩ := rfl
      have stuck : ((Scanner.starting offset).advance ('"' :: (raw ++ rest))).finish =
          ⟨[], .stuck offset⟩ := by
        rw [Scanner.advance, List.foldl_cons, opens, ← Scanner.advance, Scanner.advance_append,
          Scanner.advance_text body]
        rcases ended with rfl | isMark | rfl
        · rfl
        · exact absurd isMark isClosed
        · rfl
      exact reader.readFrom_stuck stuck

/-- The grammar and the reader find the same forms, one behind the other, and no other form begins
behind the gap that follows. -/
inductive CollectedAlike (pattern : Pattern RuleName) (offset : Nat) (text : List Char) : Prop where
  | forms {forms : List Form} {stop : Nat} {gap rest : List Char}
      (shorter : rest.length ≤ text.length)
      (matched : Matches grammar .free pattern offset text
        (some ⟨stop, gap ++ rest, Form.trees forms⟩))
      (skips : Takes grammar .compound grammar.gap gap rest) (noGap : NoGap rest)
      (stops : Stops (stop + gap.length) rest)
      (read : ∀ (goal : Goal) (reader : Reader), reader.Collects goal →
        reader.readFrom goal offset text =
          (reader.collect forms).readFrom goal (stop + gap.length) rest)

section Forms

variable {bound : Nat}
  (ih : ∀ (offset : Nat) (rest : List Char), rest.length < bound → NoGap rest →
    ReadAlike offset rest)

include ih

/-- All further forms are read alike. -/
theorem collectedAlike_repeated (offset : Nat) (text : List Char) (short : text.length < bound) :
    CollectedAlike (.repeated (.seq .gap (.rule .expression))) offset text := by
  induction length : text.length using Nat.strong_induction_on generalizing offset text with
  | _ length ihText =>
      subst length
      rcases exists_gap text with ⟨gap, rest, rfl, noGap, skips, reaches⟩
      have restShort : rest.length ≤ (gap ++ rest).length := by simp
      cases ih (offset + gap.length) rest (by omega) noGap with
      | @form form left shorter matched readForm =>
          have others := ihText left.length (by omega) form.extent.stop left (by omega) rfl
          rcases others with @⟨forms, stop, between, last, lastShort, matchedOthers, skipsLast,
            noGapLast, stops, read⟩
          refine @CollectedAlike.forms _ _ _ (form :: forms) stop between last (by omega) ?_
            skipsLast noGapLast stops ?_
          · exact .repeated_more (.seq (.gap (skips offset)) matched) matchedOthers
          · intro goal reader collects
            rw [reader.readFrom_gap (reaches offset), readForm goal reader collects.awaits,
              read goal _ (collects.attach form)]
            rfl
      | noForm refused stops =>
          refine @CollectedAlike.forms _ _ _ [] offset gap rest restShort ?_ skips noGap stops ?_
          · exact .repeated_done (.seq_refuses_second (.gap (skips offset)) refused)
          · intro goal reader _
            exact reader.readFrom_gap (reaches offset)

/-- Any number of forms are read alike. -/
theorem collectedAlike_many (offset : Nat) (text : List Char) (noGap : NoGap text)
    (short : text.length < bound) :
    CollectedAlike (.many (.rule .expression)) offset text := by
  cases ih offset text short noGap with
  | @form form left shorter matched readForm =>
      rcases collectedAlike_repeated ih form.extent.stop left (by omega) with
        @⟨forms, stop, gap, rest, restShort, matchedOthers, skips, noGapRest, stops, read⟩
      refine @CollectedAlike.forms _ _ _ (form :: forms) stop gap rest (by omega) ?_ skips noGapRest
        stops ?_
      · exact .choice_first (.seq matched matchedOthers)
      · intro goal reader collects
        rw [readForm goal reader collects.awaits, read goal _ (collects.attach form)]
        rfl
  | noForm refused stops =>
      refine @CollectedAlike.forms _ _ _ [] offset [] text (Nat.le_refl _) ?_ (.noGap noGap) noGap
        stops fun _ _ _ => rfl
      exact .choice_second (.seq_refuses_first refused) .empty

/-- A list is read alike, with the forms inside of it. -/
theorem readAlike_list (short : text.length < bound) : ReadAlike offset ('(' :: text) := by
  rcases exists_gap text with ⟨gap, inner, rfl, noGap, skips, reaches⟩
  have innerShort : inner.length ≤ (gap ++ inner).length := by simp
  rcases collectedAlike_many ih (offset + 1 + gap.length) inner noGap (by omega) with
    @⟨forms, stop, between, rest, restShort, matched, skipsLast, noGapRest, stops, read⟩
  have opens : ∀ (goal : Goal) (reader : Reader), reader.expects goal ≠ .finish →
      reader.readFrom goal offset ('(' :: (gap ++ inner)) =
        (⟨.list offset forms.reverse :: reader.opened, reader.finished⟩ : Reader).readFrom goal
          (stop + between.length) rest := by
    intro goal reader awaits
    have opened : reader.step goal ⟨.opening, ⟨offset, offset + 1⟩⟩ =
        .ok ⟨.list offset [] :: reader.opened, reader.finished⟩ := by
      simp [Reader.step, awaits]
    have collects : Reader.Collects goal ⟨.list offset [] :: reader.opened, reader.finished⟩ :=
      trivial
    rw [reader.readFrom_char .opening (by simp), opened, ← List.append_nil forms.reverse,
      ← Reader.collect_list, ← read goal _ collects]
    exact Reader.readFrom_gap _ (reaches (offset + 1))
  have matchedItems := matches_mul (Takes.literal "(" offset) skips matched
  by_cases isClosing : rest.head? = some ')'
  · rcases List.head?_eq_some_iff.mp isClosing with ⟨left, rfl⟩
    rw [List.length_cons] at restShort
    refine @ReadAlike.form offset _ (.list ⟨offset, stop + between.length + 1⟩ forms) left
      (by rw [List.length_cons]; omega) (matches_list ?_) ?_
    · have matchedBody := matches_mul matchedItems skipsLast
        (Takes.literal ")" (stop + between.length))
      rw [List.append_nil] at matchedBody
      exact .rule matchedBody
    · intro goal reader awaits
      have closed : (⟨.list offset forms.reverse :: reader.opened, reader.finished⟩ : Reader).step
          goal ⟨.closing, ⟨stop + between.length, stop + between.length + 1⟩⟩ =
          .ok (Reader.attach reader.finished
            (.list ⟨offset, stop + between.length + 1⟩ forms) reader.opened) := by
        simp [Reader.step, Reader.expects_opened]
      rw [opens goal reader awaits, Reader.readFrom_char _ .closing (by simp), closed]
      rfl
  · refine .noForm (matches_list (.rule_refuses ?_)) (Or.inr (Or.inr ?_))
    · refine matches_mul_refuses matchedItems skipsLast ?_
      refine Refuses.literal ')' rfl ?_ _
      rintro c isHead rfl
      exact isClosing isHead
    · intro goal reader awaits
      rw [opens goal reader awaits]
      rcases stops with rfl | isClosed | isError
      · exact ⟨_, rfl⟩
      · exact absurd isClosed isClosing
      · exact isError goal _ (by simp [Reader.expects_opened])

end Forms

theorem refuses_expression {mode : Mode} (notWord : ∀ c ∈ text.head?, isWordChar c = false)
    (other : ∀ c ∈ text.head?, c ≠ '\'' ∧ c ≠ ',' ∧ c ≠ '(' ∧ c ≠ '"') :
    Refuses grammar mode (.rule .expression) text :=
  .rule (.orElse (refuses_quoted fun c isHead => (other c isHead).1)
    (.orElse (refuses_unquoted fun c isHead => (other c isHead).2.1)
      (.orElse (refuses_list fun c isHead => (other c isHead).2.2.1)
        (.orElse (refuses_literal (fun c isHead => (other c isHead).2.2.2) notWord)
          (refuses_symbol notWord)))))

/-- Whatever stands behind a gap, the grammar and the reader find the same form there, or none. -/
theorem readAlike (offset : Nat) (text : List Char) (noGap : NoGap text) :
    ReadAlike offset text := by
  induction length : text.length using Nat.strong_induction_on generalizing offset text with
  | _ length ih =>
      subst length
      have ih : ∀ offset rest, rest.length < text.length → NoGap rest → ReadAlike offset rest :=
        fun offset rest shorter noGap => ih rest.length shorter offset rest noGap rfl
      rcases text with _ | ⟨c, text⟩
      · exact .noForm (refuses_expression (by simp) (by simp) offset) (Or.inl rfl)
      rcases Scanner.stepGap_cases offset [] c with ⟨isBlank, _⟩ | ⟨isComment, _⟩ |
        ⟨token, spelled, notWord, _⟩ | ⟨rfl, _⟩ | ⟨isWord, _⟩ | stuck
      · rw [(noGap c rfl).1] at isBlank
        cases isBlank
      · exact absurd isComment (noGap c rfl).2
      · cases token with
        | opening =>
            cases spelled
            exact readAlike_list ih (by simp)
        | closing =>
            cases spelled
            refine .noForm (refuses_expression ?_ (by simp) offset) (Or.inr (Or.inl rfl))
            rintro _ ⟨⟩
            rfl
        | mark mark => exact readAlike_mark spelled ih
        | text raw =>
            generalize isOne : [c] = spelling at spelled
            cases spelled
            simp at isOne
        | word run => exact absurd rfl (notWord run)
      · exact readAlike_text offset text
      · rcases exists_run_append isWordChar text with ⟨run, rest, rfl, chars, maximal⟩
        have chars : ∀ other ∈ c :: run, isWordChar other :=
          List.forall_mem_cons.mpr ⟨isWord, chars⟩
        have spelled : (Token.word (c :: run)).Spelled (c :: run) := .word (by simp) chars
        exact readAlike_token spelled (fun _ _ => maximal) .word rfl
          (matches_word (by simp) chars maximal offset)
      · refine .noForm (refuses_expression ?_ ?_ offset) (Or.inr (Or.inr ?_))
        · rintro _ ⟨⟩
          by_contra isWord
          rw [Scanner.stepGap_word (by simpa using isWord)] at stuck
          cases stuck
        · rintro _ ⟨⟩
          refine ⟨?_, ?_, ?_, ?_⟩ <;> rintro rfl <;> cases stuck
        · intro goal reader _
          have isStuck : ((Scanner.starting offset).advance (c :: text)).finish =
              ⟨[], .stuck offset⟩ := by
            change ((Scanner.stepGap offset [] c).advance text).finish = _
            rw [stuck]
            exact Scanner.finish_advance_stuck offset (offset + 1) [] text
          exact reader.readFrom_stuck isStuck

/-! ### Whole texts -/

/-- Where a text has to end, it is refused if it goes on. -/
theorem readFrom_finished {goal : Goal} {reader : Reader}
    (awaitsEnd : reader.expects goal = .finish) (noGap : NoGap text) (goesOn : text ≠ []) :
    ∃ misread, reader.readFrom goal offset text = .error misread := by
  rw [Reader.readFrom]
  cases lexemes : ((Scanner.starting offset).advance text).finish.lexemes with
  | cons lexeme others =>
      have refused : reader.advance goal (lexeme :: others) =
          .error (reader.misread goal lexeme.extent.start) := by
        rw [Reader.advance, List.foldlM_cons]
        simp only [Reader.step, if_pos awaitsEnd]
        rfl
      exact ⟨_, by rw [refused]; rfl⟩
  | nil =>
      cases ending : ((Scanner.starting offset).advance text).finish.ending with
      | stuck place => exact ⟨_, rfl⟩
      | complete stop =>
          -- only a gap could have been scanned without finding a token
          rcases Scanner.leads_of_finish ending with ⟨found, isFound, split⟩
          rw [lexemes] at isFound
          have noneFound : found = [] := isFound.symm
          have split : Splits offset text found := split
          rw [noneFound] at split
          cases split with
          | done => exact absurd rfl goesOn
          | blank isBlank _ =>
              rw [(noGap _ rfl).1] at isBlank
              cases isBlank
          | comment _ _ _ => exact absurd rfl (noGap _ rfl).2

/-- Where gaps are skipped, a rule that is neither silent nor atomic leaves a node. -/
theorem matches_normal {name : RuleName} {body : Pattern RuleName}
    {outcome : Option (Match RuleName)} (isRule : rules name = ⟨.normal, body⟩)
    (matched : Matches grammar .free body offset text outcome) :
    Matches grammar .free (.rule name) offset text (outcome.map fun taken =>
      ⟨taken.stop, taken.rest, [.node name ⟨offset, taken.stop⟩ taken.trees]⟩) := by
  have isDefinition : grammar.definition name = ⟨.normal, body⟩ := isRule
  have inside : Matches grammar (Mode.inside .free (grammar.definition name).kind)
      (grammar.definition name).body offset text outcome := by
    rw [isDefinition]
    exact matched
  cases outcome with
  | none => exact .rule_refuses inside
  | some taken =>
      have ruleTaken := Matches.rule inside
      rwa [isDefinition] at ruleTaken

/-- The rule for whole texts takes a text that ends behind its forms, and refuses one that goes
on. -/
theorem matches_whole (goal : Goal) {pattern : Pattern RuleName} {forms : List Form}
    {result : Except Misread (List Form)}
    (isRule : rules goal.rule = ⟨.normal, .start * pattern * .rule .endOfInput⟩)
    (skips : Takes grammar .compound grammar.gap gap text)
    (matched : Matches grammar .free pattern gap.length text
      (some ⟨stop, left ++ rest, Form.trees forms⟩))
    (skipsLast : Takes grammar .compound grammar.gap left rest)
    (ends : rest = [] → result = .ok forms)
    (goesOn : rest ≠ [] → ∃ misread, result = .error misread) :
    Matches grammar .free (.rule goal.rule) 0 (gap ++ text)
      (goal.outcome (gap ++ text).length result) := by
  have started : Matches grammar .free (.start * pattern) 0 (gap ++ text)
      (some ⟨stop, left ++ rest, Form.trees forms⟩) :=
    matches_mul .start skips (by rwa [Nat.zero_add])
  cases rest with
  | nil =>
      have isLength : stop + left.length = (gap ++ text).length := by
        simpa using started.length_eq _ rfl
      have atEnd : Matches grammar .free (.rule .endOfInput) (stop + left.length) []
          (some ⟨stop + left.length, [],
            [.node .endOfInput ⟨stop + left.length, stop + left.length⟩ []]⟩) := .rule .finish
      have body := matches_mul started skipsLast atEnd
      rw [isLength] at body
      rw [ends rfl]
      exact matches_normal isRule body
  | cons c more =>
      rcases goesOn (List.cons_ne_nil c more) with ⟨misread, rfl⟩
      refine matches_normal isRule (matches_mul_refuses started skipsLast ?_)
      exact .rule_refuses (.finish_refuses (List.cons_ne_nil c more))

/-- The grammar takes exactly the programs that the reader reads, and tells of the same forms. -/
theorem matches_program (source : List Char) : Matches grammar .free (.rule .program) 0 source
    (Goal.outcome .program source.length (readForms .program source)) := by
  rcases exists_gap source with ⟨gap, text, rfl, noGap, skips, reaches⟩
  rcases collectedAlike_many
    (fun offset rest (_ : rest.length < text.length + 1) => readAlike offset rest)
    gap.length text noGap (Nat.lt_succ_self _) with
    @⟨forms, stop, between, rest, _, matched, skipsLast, noGapRest, stops, read⟩
  have isRead : readForms .program (gap ++ text) =
      (⟨[], forms.reverse⟩ : Reader).readFrom .program (stop + between.length) rest := by
    have started : Reader.initial.readFrom .program 0 (gap ++ text) = _ :=
      Reader.initial.readFrom_gap (reaches 0)
    rw [Nat.zero_add, read .program Reader.initial rfl] at started
    rw [← List.append_nil forms.reverse, ← Reader.collect_top]
    exact started
  refine matches_whole .program rfl skips matched skipsLast ?_ ?_
  · rintro rfl
    rw [isRead]
    change Except.ok forms.reverse.reverse = _
    rw [List.reverse_reverse]
  · intro goesOn
    rw [isRead]
    rcases stops with isEmpty | isClosing | isError
    · exact absurd isEmpty goesOn
    · exact Reader.readFrom_closing isClosing (by simp)
    · exact isError .program _ (by simp [Reader.expects])

theorem matches_single (source : List Char) : Matches grammar .free (.rule .single) 0 source
    (Goal.outcome .single source.length (readForms .single source)) := by
  rcases exists_gap source with ⟨gap, text, rfl, noGap, skips, reaches⟩
  have isRead : readForms .single (gap ++ text) =
      Reader.initial.readFrom .single gap.length text := by
    have started : Reader.initial.readFrom .single 0 (gap ++ text) = _ :=
      Reader.initial.readFrom_gap (reaches 0)
    rwa [Nat.zero_add] at started
  cases readAlike gap.length text noGap with
  | @form form behind _ matched read =>
      rcases exists_gap behind with ⟨between, rest, rfl, noGapRest, skipsLast, reachesLast⟩
      have isRead : readForms .single (gap ++ text) =
          (⟨[], [form]⟩ : Reader).readFrom .single (form.extent.stop + between.length) rest := by
        rw [isRead, read .single Reader.initial (by simp [Reader.initial, Reader.expects])]
        exact Reader.readFrom_gap _ (reachesLast _)
      have matched : Matches grammar .free (.rule .expression) gap.length text
          (some ⟨form.extent.stop, between ++ rest, Form.trees [form]⟩) := matched
      refine matches_whole .single rfl skips matched skipsLast ?_ ?_
      · rintro rfl
        rw [isRead]
        rfl
      · intro goesOn
        rw [isRead]
        exact readFrom_finished rfl noGapRest goesOn
  | noForm refused stops =>
      have misread : ∃ misread, Reader.initial.readFrom .single gap.length text = .error misread :=
        stops.misread rfl (by simp [Reader.initial])
      rcases misread with ⟨misread, isError⟩
      rw [isRead, isError]
      refine @matches_normal _ _ .single _ none rfl (.seq_refuses_first ?_)
      exact matches_mul_refuses .start skips (by rwa [Nat.zero_add])

/-- The rule for whole texts does with a text what reading it says, and nothing else. -/
theorem matches_whole_iff {goal : Goal} {source : List Char} {outcome : Option (Match RuleName)} :
    Matches grammar .free (.rule goal.rule) 0 source outcome ↔
      outcome = goal.outcome source.length (readForms goal source) := by
  have matched : Matches grammar .free (.rule goal.rule) 0 source
      (goal.outcome source.length (readForms goal source)) := by
    cases goal with
    | program => exact matches_program source
    | single => exact matches_single source
  constructor
  · exact fun other => other.unique matched
  · rintro rfl
    exact matched

end Peg

end ExactLisp
