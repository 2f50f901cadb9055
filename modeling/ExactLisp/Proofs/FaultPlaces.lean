import ExactLisp.Proofs.Compilable
import ExactLisp.Proofs.Concatenation

/-!
# Where faults lie

A fault names a stretch of the source, and this stretch is the text of one form, however deep that
form stands. If the problem is one of the form alone, the form has it wherever it stands, so its
text has the same problem when it is parsed on its own.

Two things come together here. Turning forms into expressions fails with the extent of a form that
stands within the one it started from (`Form.failsWithin_toCode`). And the tokens of a form stand
together in the tokens of the text, so the stretch that they cover splits into them and into nothing
else (`Splits.cut`).
-/

namespace ExactLisp

/-- The place behind a text: every line feed in it starts a new line, and the column counts what
follows the last one. -/
def Position.behind (text : List Char) : Position :=
  ⟨text.count '\n' + 1, (text.reverse.takeWhile (· ≠ '\n')).length + 1⟩

/-- Whether a problem is one of a form alone. The others come up only where something else than any
form is asked for. -/
def FormProblem.isOwn : FormProblem → Bool
  | literal _ | escape _ | argumentCount .. => true
  | expectedSymbol | expectedParameters | duplicateParameter _ => false

namespace Form

/-- One form stands within another, at any depth, or is that form. -/
inductive Within (inner : Form) : Form → Prop where
  | self : Within inner inner
  | marked {extent : Extent} {mark : Mark} {form : Form} (within : Within inner form) :
      Within inner (.marked extent mark form)
  | item {extent : Extent} {items : List Form} {form : Form} (isItem : form ∈ items)
      (within : Within inner form) : Within inner (.list extent items)

/-- A fault lies in a form: at a form within it, which has the problem itself if it can. -/
def Blames (form : Form) (fault : Fault) : Prop :=
  ∃ inner : Form, inner.Within form ∧ inner.extent = fault.extent ∧
    (fault.problem.isOwn → inner.toCode = .error fault)

/-- Whatever a computation fails with lies in a form. -/
def FailsWithin {α : Type} (form : Form) (result : Except Fault α) : Prop :=
  ∀ fault, result = .error fault → form.Blames fault

/-! ### What a failure blames -/

section Failures

variable {α β : Type} {result : Except Fault α} {extent : Extent} {mark : Mark} {form : Form}
  {items : List Form} {fault : Fault}

theorem FailsWithin.ok (value : α) : form.FailsWithin (.ok value) := by
  rintro fault ⟨⟩

theorem FailsWithin.bind {next : α → Except Fault β} (first : form.FailsWithin result)
    (rest : ∀ value, form.FailsWithin (next value)) : form.FailsWithin (result >>= next) := by
  intro fault failed
  rcases bind_eq_error_iff.mp failed with failed | ⟨value, _, failed⟩
  · exact first fault failed
  · exact rest value fault failed

theorem FailsWithin.map {change : α → β} (fails : form.FailsWithin result) :
    form.FailsWithin (change <$> result) := by
  intro fault failed
  exact fails fault (map_eq_error_iff.mp failed)

theorem FailsWithin.mapM {visit : α → Except Fault β} {values : List α}
    (each : ∀ value ∈ values, form.FailsWithin (visit value)) :
    form.FailsWithin (values.mapM visit) := by
  intro fault failed
  rcases mapM_eq_error_iff.mp failed with ⟨before, value, after, rfl, valueFailed, _⟩
  exact each value (by simp) fault valueFailed

theorem FailsWithin.marked (fails : form.FailsWithin result) :
    (Form.marked extent mark form).FailsWithin result := by
  intro fault failed
  rcases fails fault failed with ⟨inner, within, rest⟩
  exact ⟨inner, .marked within, rest⟩

theorem FailsWithin.item (isItem : form ∈ items) (fails : form.FailsWithin result) :
    (Form.list extent items).FailsWithin result := by
  intro fault failed
  rcases fails fault failed with ⟨inner, within, rest⟩
  exact ⟨inner, .item isItem within, rest⟩

/-- A problem that is not of a form alone lies where it is named. -/
theorem failsWithin_error {problem : FormProblem} (notOwn : problem.isOwn = false) :
    form.FailsWithin (.error ⟨problem, form.extent⟩ : Except Fault α) := by
  rintro fault ⟨⟩
  exact ⟨form, .self, rfl, by simp [notOwn]⟩

theorem failsWithin_symbolName (form : Form) : form.FailsWithin form.symbolName := by
  cases form with
  | word extent run =>
      rw [symbolName]
      split
      · exact .ok _
      · exact failsWithin_error rfl
  | _ => exact failsWithin_error rfl

theorem failsWithin_parameterNames {earlier : List String} {extent : Extent} {all items : List Form}
    (areItems : items ⊆ all) :
    (Form.list extent all).FailsWithin (parameterNames earlier items) := by
  induction items generalizing earlier with
  | nil => exact .ok _
  | cons item items ih =>
      rcases List.cons_subset.mp areItems with ⟨itemMem, areOthers⟩
      refine .bind (.item itemMem (failsWithin_symbolName item)) ?_
      intro name
      split
      · exact .item itemMem (failsWithin_error rfl)
      · exact ih areOthers

theorem failsWithin_parameters (form : Form) : form.FailsWithin form.parameters := by
  cases form with
  | list extent items => exact failsWithin_parameterNames (List.Subset.refl _)
  | word extent run =>
      rw [parameters]
      split
      · exact .ok _
      · exact failsWithin_error rfl
  | _ => exact failsWithin_error rfl

theorem extent_of_ofWord {run : List Char} (failed : Expr.ofWord extent run = .error fault) :
    fault.extent = extent := by
  rw [Expr.ofWord] at failed
  split at failed
  · split at failed <;> cases failed
    rfl
  all_goals cases failed

theorem extent_of_ofText {raw : List Char} (failed : Expr.ofText extent raw = .error fault) :
    fault.extent = extent := by
  rw [Expr.ofText] at failed
  split at failed <;> cases failed
  rfl

/-- If a list fails as code, it has the wrong number of items, or it fails as one of its items
does. -/
theorem failsWithin_list (code : ∀ item ∈ items, item.FailsWithin item.toCode)
    (datum : ∀ item ∈ items, item.FailsWithin item.toDatum) :
    (Form.list extent items).FailsWithin (Form.list extent items).toCode := by
  have body : ∀ form forms (finish : Expr → List Expr → Expr), form :: forms <:+ items →
      (Form.list extent items).FailsWithin (do
        let first ← form.toCode
        let others ← toCodes forms
        return finish first others) := by
    intro form forms finish among
    have each : ∀ item ∈ form :: forms, (Form.list extent items).FailsWithin item.toCode :=
      fun item itemMem => (code item (among.subset itemMem)).item (among.subset itemMem)
    rw [List.forall_mem_cons] at each
    rw [toCodes_eq_mapM]
    exact .bind each.1 fun first => .bind (.mapM each.2) fun others => .ok _
  generalize isCode : (Form.list extent items).toCode = result
  have unfolded := isCode
  rw [toCode.eq_def] at unfolded
  dsimp only at unfolded
  split at unfolded <;> subst unfolded
  case h_1 => exact (datum _ (by simp)).map.item (by simp)
  case h_2 =>
    refine .bind (.item (by simp) (code _ (by simp))) fun test => ?_
    refine .bind (.item (by simp) (code _ (by simp))) fun onTrue => ?_
    exact .bind (.item (by simp) (code _ (by simp))) fun onFalse => .ok _
  case h_3 | h_4 =>
    refine .bind (.item (by simp) (failsWithin_symbolName _)) fun name => ?_
    exact .bind (.item (by simp) (code _ (by simp))) fun value => .ok _
  case h_5 =>
    refine .bind (.item (by simp) (failsWithin_parameters _)) fun params => ?_
    exact body _ _ _ ⟨[_, _], rfl⟩
  case h_6 =>
    refine .bind (.item (by simp) (failsWithin_symbolName _)) fun name => ?_
    refine .bind (.item (by simp) (failsWithin_parameters _)) fun params => ?_
    exact body _ _ _ ⟨[_, _, _], rfl⟩
  case h_7 =>
    rintro fault ⟨⟩
    exact ⟨_, .self, rfl, fun _ => isCode⟩
  case h_8 =>
    rw [toCodes_eq_mapM]
    exact .map (.mapM fun item itemMem => (code item itemMem).item itemMem)

/-- Whatever turning a form into an expression fails with lies in that form. -/
theorem failsWithin_toCode (form : Form) :
    form.FailsWithin form.toCode ∧ form.FailsWithin form.toDatum := by
  induction form with
  | word extent run =>
      have fails : (word extent run).FailsWithin (word extent run).toCode := fun fault failed =>
        ⟨_, .self, (extent_of_ofWord failed).symm, fun _ => failed⟩
      exact ⟨fails, fails⟩
  | text extent raw =>
      have fails : (text extent raw).FailsWithin (text extent raw).toCode := fun fault failed =>
        ⟨_, .self, (extent_of_ofText failed).symm, fun _ => failed⟩
      exact ⟨fails, fails⟩
  | marked extent mark form ih =>
      cases mark with
      | quote => exact ⟨ih.2.map.marked, ih.2.map.marked⟩
      | unquote => exact ⟨ih.1.map.marked, ih.1.map.marked⟩
  | list extent items ih =>
      have code := fun item itemMem => (ih item itemMem).1
      have datum := fun item itemMem => (ih item itemMem).2
      refine ⟨failsWithin_list code datum, ?_⟩
      rw [toDatum, toData_eq_mapM]
      exact .map (.mapM fun item itemMem => (datum item itemMem).item itemMem)

end Failures

/-! ### The text of a form -/

variable {form : Form} {lexemes : List Lexeme}

/-- The tokens of a form that stands in another are a stretch of those of the other. -/
theorem Within.exists_infix {inner : Form} (within : inner.Within form)
    (written : form.Written lexemes) : ∃ middle, inner.Written middle ∧ middle <:+: lexemes := by
  induction within generalizing lexemes with
  | self => exact ⟨lexemes, written, List.infix_refl _⟩
  | marked _ ih =>
      cases written with
      | marked written =>
          rcases ih written with ⟨middle, writtenInner, isInfix⟩
          exact ⟨middle, writtenInner, List.infix_cons isInfix⟩
  | item isItem _ ih =>
      cases written with
      | @list _ _ parts each =>
          rcases List.mem_map.mp isItem with ⟨part, partMem, rfl⟩
          rcases ih (each part partMem) with ⟨middle, writtenInner, isInfix⟩
          have amongItems : part.2 <:+: parts.flatMap Prod.snd :=
            List.infix_of_mem_flatten (List.mem_map_of_mem partMem)
          refine ⟨middle, writtenInner, List.infix_cons ?_⟩
          exact (isInfix.trans amongItems).trans (List.prefix_append _ _).isInfix

theorem Written.ne_nil (written : form.Written lexemes) : lexemes ≠ [] := by
  cases written <;> exact List.cons_ne_nil _ _

/-- A form reaches from the start of its first token to the end of its last one. -/
theorem Written.extent_eq (written : form.Written lexemes) :
    form.extent = ⟨(lexemes.head written.ne_nil).extent.start,
      (lexemes.getLast written.ne_nil).extent.stop⟩ := by
  induction written with
  | word => rfl
  | text => rfl
  | @marked first mark form lexemes written ih =>
      have isStop : form.extent.stop = (lexemes.getLast written.ne_nil).extent.stop := by rw [ih]
      rw [List.getLast_cons written.ne_nil]
      exact congrArg (Extent.mk first.start) isStop
  | list _ _ => simp [extent]

end Form

namespace Splits

variable {offset place : Nat} {text : List Char} {lexemes before middle after : List Lexeme}

/-- A text splits behind the gap before any of its tokens. -/
theorem drop_before (split : Splits offset text (before ++ middle)) (nonempty : middle ≠ []) :
    ∃ skipped rest, text = skipped ++ rest ∧
      (middle.head nonempty).extent.start = offset + skipped.length ∧
      Splits (middle.head nonempty).extent.start rest middle := by
  generalize areAll : before ++ middle = lexemes at split
  induction split generalizing before with
  | done => simp [nonempty] at areAll
  | @blank offset c rest lexemes _ _ ih =>
      rcases ih areAll with ⟨skipped, others, rfl, isStart, split⟩
      refine ⟨c :: skipped, others, rfl, ?_, split⟩
      rw [isStart, List.length_cons]
      omega
  | @comment offset body rest lexemes _ _ _ ih =>
      rcases ih areAll with ⟨skipped, others, rfl, isStart, split⟩
      refine ⟨';' :: (body ++ skipped), others, by simp, ?_, split⟩
      rw [isStart, List.length_cons, List.length_append]
      omega
  | @token offset token spelling rest lexemes spelled maximal split ih =>
      cases before with
      | nil =>
          cases areAll
          exact ⟨[], _, rfl, rfl, .token spelled maximal split⟩
      | cons first before =>
          cases areAll
          rcases ih rfl with ⟨skipped, others, rfl, isStart, split⟩
          refine ⟨spelling ++ skipped, others, by simp, ?_, split⟩
          rw [isStart, List.length_append]
          omega

theorem head_of_append {taken rest : List Char} {holds : Char → Prop}
    (all : ∀ c ∈ (taken ++ rest).head?, holds c) : ∀ c ∈ taken.head?, holds c := by
  cases taken with
  | nil => simp
  | cons first taken => exact all

/-- A text splits behind any of its tokens. -/
theorem take_through (split : Splits offset text (middle ++ after)) (nonempty : middle ≠ []) :
    ∃ taken rest, text = taken ++ rest ∧ Splits offset taken middle ∧
      (middle.getLast nonempty).extent.stop = offset + taken.length := by
  generalize areAll : middle ++ after = lexemes at split
  induction split generalizing middle with
  | done => simp [nonempty] at areAll
  | @blank offset c rest lexemes isBlank _ ih =>
      rcases ih nonempty areAll with ⟨taken, others, rfl, split, isStop⟩
      refine ⟨c :: taken, others, rfl, .blank isBlank split, ?_⟩
      rw [isStop, List.length_cons]
      omega
  | @comment offset body rest lexemes inLine ended _ ih =>
      rcases ih nonempty areAll with ⟨taken, others, rfl, split, isStop⟩
      refine ⟨';' :: (body ++ taken), others, by simp, ?_, ?_⟩
      · exact .comment inLine (head_of_append ended) split
      · rw [isStop, List.length_cons, List.length_append]
        omega
  | @token offset token spelling rest lexemes spelled maximal split ih =>
      rcases List.exists_cons_of_ne_nil nonempty with ⟨first, others, rfl⟩
      cases areAll
      cases others with
      | nil =>
          have alone : Splits offset (spelling ++ [])
              [⟨token, ⟨offset, offset + spelling.length⟩⟩] := .token spelled (by simp) .done
          rw [List.append_nil] at alone
          exact ⟨spelling, rest, rfl, alone, rfl⟩
      | cons second others =>
          rcases ih (List.cons_ne_nil _ _) rfl with ⟨taken, left, rfl, split, isStop⟩
          refine ⟨spelling ++ taken, left, by simp, ?_, ?_⟩
          · exact .token spelled (fun run isWord => head_of_append (maximal run isWord)) split
          · rw [List.getLast_cons (List.cons_ne_nil _ _), isStop, List.length_append,
              Nat.add_assoc]

/-- A text that stands elsewhere splits into the same tokens, found elsewhere. -/
theorem move_back {distance : Nat} (split : Splits place text lexemes)
    (isPlace : place = offset + distance) :
    Splits offset text (lexemes.map (Lexeme.relocate (· - distance))) := by
  induction split generalizing offset with
  | done => exact .done
  | blank isBlank _ ih => exact .blank isBlank (ih (by omega))
  | comment inLine ended _ ih => exact .comment inLine ended (ih (by omega))
  | @token place token spelling rest lexemes spelled maximal _ ih =>
      have moved : Lexeme.relocate (· - distance) ⟨token, ⟨place, place + spelling.length⟩⟩ =
          ⟨token, ⟨offset, offset + spelling.length⟩⟩ := by
        simp only [Lexeme.relocate, Extent.relocate, Lexeme.mk.injEq, Extent.mk.injEq, true_and]
        omega
      rw [List.map_cons, moved]
      exact .token spelled maximal (ih (by omega))

/-- Tokens that stand together in a text are those of the stretch that they cover. -/
theorem cut (split : Splits 0 text lexemes) (isInfix : middle <:+: lexemes)
    (nonempty : middle ≠ []) :
    ∃ skipped found rest, text = skipped ++ found ++ rest ∧
      (middle.head nonempty).extent.start = skipped.length ∧
      (middle.getLast nonempty).extent.stop = skipped.length + found.length ∧
      Splits 0 found (middle.map (Lexeme.relocate (· - skipped.length))) := by
  rcases isInfix with ⟨before, after, rfl⟩
  rw [List.append_assoc] at split
  have moreNonempty : middle ++ after ≠ [] := List.append_ne_nil_of_left_ne_nil nonempty after
  rcases split.drop_before moreNonempty with ⟨skipped, others, rfl, isStart, split⟩
  rw [List.head_append_of_ne_nil nonempty] at isStart split
  rcases split.take_through nonempty with ⟨found, rest, rfl, split, isStop⟩
  rw [Nat.zero_add] at isStart
  rw [isStart] at isStop split
  exact ⟨skipped, found, rest, by simp, isStart, isStop, split.move_back (Nat.zero_add _).symm⟩

end Splits

/-- The text of a form that stands in a text is read as that form. -/
theorem Form.Within.read_alone {inner form : Form} {forms : List Form} {source : List Char}
    {goal : Goal} (within : inner.Within form) (isItem : form ∈ forms)
    (isRead : readForms goal source = .ok forms) :
    ∃ before found after, source = before ++ found ++ after ∧
      inner.extent = ⟨before.length, before.length + found.length⟩ ∧
      readForms .single found = .ok [inner.relocate (· - before.length)] := by
  rcases readForms_eq_ok_iff.mp isRead with ⟨lexemes, split, ⟨parts, each, rfl, rfl⟩, _⟩
  rcases List.mem_map.mp isItem with ⟨part, partMem, rfl⟩
  rcases within.exists_infix (each part partMem) with ⟨middle, written, isInfix⟩
  have amongAll : part.2 <:+: parts.flatMap Prod.snd :=
    List.infix_of_mem_flatten (List.mem_map_of_mem partMem)
  rcases split.cut (isInfix.trans amongAll) written.ne_nil with
    ⟨before, found, after, isSource, isStart, isStop, splitFound⟩
  refine ⟨before, found, after, isSource, ?_, ?_⟩
  · rw [written.extent_eq, isStart, isStop]
  · have writtenAlone := written.relocate (· - before.length)
    exact readForms_eq_ok_iff.mpr ⟨_, splitFound, .singleton writtenAlone, fun _ => ⟨_, rfl⟩⟩

/-! ### Places -/

theorem Position.advanceOver_origin (text : List Char) : origin.advanceOver text = behind text := by
  induction text using List.reverseRecOn with
  | nil => rfl
  | append_singleton text c ih =>
      rw [advanceOver_append, ih]
      by_cases isFeed : c = '\n'
      · simp [advanceOver, advance, behind, isFeed]
      · simp [advanceOver, advance, behind, isFeed]

/-- A stretch of a text is shown by the places around it and the characters of it. -/
theorem Extent.locate_found (before found after : List Char) :
    Extent.locate (before ++ found ++ after) ⟨before.length, before.length + found.length⟩ =
      ⟨.behind before, .behind (before ++ found), String.ofList found⟩ := by
  have upTo : (before ++ found ++ after).take before.length = before := by
    rw [List.append_assoc, List.take_left]
  have through : (before ++ found ++ after).take (before.length + found.length) =
      before ++ found := by
    rw [← List.length_append, List.take_left]
  have between : Extent.slice (before ++ found ++ after)
      ⟨before.length, before.length + found.length⟩ = found := by
    rw [slice, Nat.add_sub_cancel_left, List.append_assoc, List.drop_left, List.take_left]
  rw [locate, Position.ofOffset, Position.ofOffset, upTo, through, between,
    Position.advanceOver_origin, Position.advanceOver_origin]

/-! ### Parsing -/

/-- What a text fails with that is a sequence of forms, or one form. -/
theorem exists_of_parse_faulty {source : String} {problem : FormProblem} {span : Span}
    (failed : parseProgram source = .error (.faulty problem span) ∨
      parseForms source = .error (.faulty problem span) ∨
      parseExpression source = .error (.faulty problem span)) :
    ∃ goal forms fault, readForms goal source.toList = .ok forms ∧
      Form.toCodes forms = .error fault ∧ fault.problem = problem ∧
      fault.extent.locate source.toList = span := by
  have parsed : ∃ goal, parseText goal source.toList = .error (.faulty problem span) := by
    rcases failed with failed | failed | failed
    · exact ⟨.program, map_eq_error_iff.mp failed⟩
    · exact ⟨.program, failed⟩
    · exact ⟨.single, map_eq_error_iff.mp failed⟩
  rcases parsed with ⟨goal, parsed⟩
  rw [parseText] at parsed
  split at parsed
  · cases parsed
  · rename_i forms isRead
    split at parsed
    · rename_i fault isFault
      cases parsed
      exact ⟨goal, forms, fault, isRead, isFault, rfl, rfl⟩
    · cases parsed

theorem parseExpression_of_read {found : List Char} {form : Form} {fault : Fault}
    (isRead : readForms .single found = .ok [form]) (failed : form.toCode = .error fault) :
    parseExpression (String.ofList found) = .error (.ofFault found fault) := by
  have isReadText : readForms .single (String.ofList found).toList = .ok [form] := by
    rwa [String.toList_ofList]
  rw [parseExpression_eq_of_read isReadText, failed, mapError_error, String.toList_ofList]

/-- Faults point at their text. The span of a fault gives the places around a stretch of the source,
and the characters of that stretch. If the problem is one of a form alone, parsing these characters
on their own fails with the same problem, and with all of them as the faulty stretch. -/
theorem faults_point_at_their_text (source : String) (problem : FormProblem) (span : Span)
    (failed : parseProgram source = .error (.faulty problem span) ∨
      parseForms source = .error (.faulty problem span) ∨
      parseExpression source = .error (.faulty problem span)) :
    ∃ before found after, source.toList = before ++ found ++ after ∧
      span = ⟨.behind before, .behind (before ++ found), String.ofList found⟩ ∧
      (problem.isOwn → parseExpression span.text =
        .error (.faulty problem ⟨.origin, .behind found, span.text⟩)) := by
  rcases exists_of_parse_faulty failed with ⟨goal, forms, fault, isRead, isFault, rfl, rfl⟩
  rw [Form.toCodes_eq_mapM, mapM_eq_error_iff] at isFault
  rcases isFault with ⟨earlier, form, later, rfl, formFailed, _⟩
  rcases form.failsWithin_toCode.1 fault formFailed with ⟨inner, within, sameExtent, ownFault⟩
  rcases within.read_alone (by simp) isRead with ⟨before, found, after, isSource, isExtent, isAlone⟩
  rw [sameExtent] at isExtent
  have located := Extent.locate_found before found after
  rw [← isSource, ← isExtent] at located
  refine ⟨before, found, after, isSource, located, ?_⟩
  intro isOwn
  have failsAlone : (inner.relocate (· - before.length)).toCode =
      .error ⟨fault.problem, ⟨0, found.length⟩⟩ := by
    rw [(inner.toCode_relocate _).1, ownFault isOwn, mapError_error, Fault.relocate, isExtent,
      Extent.relocate, Nat.sub_self, Nat.add_sub_cancel_left]
  have locatedAlone : Extent.locate found ⟨0, found.length⟩ =
      ⟨.behind [], .behind found, String.ofList found⟩ := by
    simpa using Extent.locate_found [] found []
  rw [located, parseExpression_of_read isAlone failsAlone, ParseError.ofFault, locatedAlone]
  rfl

theorem wrong_count_below_two_quotes_is_reported_alike :
    parseProgram "\"two\r\nlines\" ; (if\r '(a ,(b '(\"\" ,(if 1 \"\\q\"))))" =
      .error (.faulty (.argumentCount .branch (.fixed 3) 2)
        ⟨⟨2, 29⟩, ⟨2, 40⟩, "(if 1 \"\\q\")"⟩) ∧
    parseExpression "(if 1 \"\\q\")" =
      .error (.faulty (.argumentCount .branch (.fixed 3) 2)
        ⟨⟨1, 1⟩, ⟨1, 12⟩, "(if 1 \"\\q\")"⟩) := by
  have failed : parseProgram "\"two\r\nlines\" ; (if\r '(a ,(b '(\"\" ,(if 1 \"\\q\"))))" =
      .error (.faulty (.argumentCount .branch (.fixed 3) 2)
        ⟨⟨2, 29⟩, ⟨2, 40⟩, "(if 1 \"\\q\")"⟩) := by rfl
  rcases faults_point_at_their_text _ _ _ (Or.inl failed) with
    ⟨before, found, after, isSource, isSpan, alone⟩
  have isFound : found = "(if 1 \"\\q\")".toList := by
    rw [Span.mk.injEq] at isSpan
    rw [isSpan.2.2, String.toList_ofList]
  subst isFound
  exact ⟨failed, alone rfl⟩

end ExactLisp
