import ExactLisp.Parse
import ExactLisp.Proofs.Outcome
import ExactLisp.Proofs.Spelling
import ExactLisp.Proofs.Words

/-!
# The grammar of forms

`Form.Written` is the grammar of the reader: a form is a word, a string literal, a mark and a form,
or any number of forms between parentheses. It relates a form to the tokens that it is written as,
stretches included, and says nothing about how forms are found.

Reading a text gives exactly the forms that its tokens are the writing of (`readForms_eq_ok_iff`).
One direction follows the grammar; the other keeps, step by step, what the finished and the open
forms of the reader were written as.
-/

namespace ExactLisp

/-- The tokens that a form is written as. -/
inductive Form.Written : Form → List Lexeme → Prop where
  | word {extent : Extent} {run : List Char} : Written (.word extent run) [⟨.word run, extent⟩]
  | text {extent : Extent} {raw : List Char} : Written (.text extent raw) [⟨.text raw, extent⟩]
  | marked {extent : Extent} {mark : Mark} {form : Form} {lexemes : List Lexeme}
      (written : Written form lexemes) :
      Written (.marked ⟨extent.start, form.extent.stop⟩ mark form) (⟨.mark mark, extent⟩ :: lexemes)
  | list {first last : Extent} {parts : List (Form × List Lexeme)}
      (each : ∀ part ∈ parts, Written part.1 part.2) :
      Written (.list ⟨first.start, last.stop⟩ (parts.map Prod.fst))
        (⟨.opening, first⟩ :: (parts.flatMap Prod.snd ++ [⟨.closing, last⟩]))

/-- The tokens that forms are written as, one form after the other. -/
def Form.WrittenEach (forms : List Form) (lexemes : List Lexeme) : Prop :=
  ∃ parts : List (Form × List Lexeme), (∀ part ∈ parts, part.1.Written part.2) ∧
    parts.map Prod.fst = forms ∧ parts.flatMap Prod.snd = lexemes

namespace Form

theorem WrittenEach.nil : WrittenEach [] [] :=
  ⟨[], by simp, rfl, rfl⟩

theorem WrittenEach.singleton {form : Form} {lexemes : List Lexeme}
    (written : form.Written lexemes) : WrittenEach [form] lexemes :=
  ⟨[(form, lexemes)], by simpa using written, rfl, by simp⟩

theorem WrittenEach.of_singleton {form : Form} {lexemes : List Lexeme}
    (written : WrittenEach [form] lexemes) : form.Written lexemes := by
  rcases written with ⟨parts, each, isForm, rfl⟩
  rcases List.map_eq_singleton_iff.mp isForm with ⟨part, rfl, rfl⟩
  simpa using each

theorem WrittenEach.append {first second : List Form} {firstLexemes secondLexemes : List Lexeme}
    (writtenFirst : WrittenEach first firstLexemes)
    (writtenSecond : WrittenEach second secondLexemes) :
    WrittenEach (first ++ second) (firstLexemes ++ secondLexemes) := by
  rcases writtenFirst with ⟨firstParts, eachFirst, rfl, rfl⟩
  rcases writtenSecond with ⟨secondParts, eachSecond, rfl, rfl⟩
  refine ⟨firstParts ++ secondParts, ?_, by simp, by simp⟩
  exact List.forall_mem_append.mpr ⟨eachFirst, eachSecond⟩

theorem Written.list_of_each {first last : Extent} {items : List Form} {lexemes : List Lexeme}
    (written : WrittenEach items lexemes) :
    (Form.list ⟨first.start, last.stop⟩ items).Written
      (⟨.opening, first⟩ :: (lexemes ++ [⟨.closing, last⟩])) := by
  rcases written with ⟨parts, each, rfl, rfl⟩
  exact .list each

end Form

namespace Reader

variable {goal : Goal} {reader next : Reader} {lexemes : List Lexeme}

theorem expects_opened (goal : Goal) (innermost : Opened) (opened : List Opened)
    (finished : List Form) : expects goal ⟨innermost :: opened, finished⟩ = .form := by
  cases goal <;> cases finished <;> rfl

theorem advance_cons_of_step {lexeme : Lexeme} (stepped : reader.step goal lexeme = .ok next)
    (rest : List Lexeme) : reader.advance goal (lexeme :: rest) = next.advance goal rest := by
  rw [advance, List.foldlM_cons, stepped]
  rfl

/-- What a step can do: open a list or a mark, take a form of one token, or close a list. -/
theorem step_cases {lexeme : Lexeme} (stepped : reader.step goal lexeme = .ok next) :
    reader.expects goal ≠ .finish ∧
      (lexeme.token = .opening ∧
          next = ⟨.list lexeme.extent.start [] :: reader.opened, reader.finished⟩ ∨
        (∃ mark, lexeme.token = .mark mark ∧
          next = ⟨.mark lexeme.extent.start mark :: reader.opened, reader.finished⟩) ∨
        (∃ form, Form.Written form [lexeme] ∧
          next = attach reader.finished form reader.opened) ∨
        ∃ start items outer, lexeme.token = .closing ∧ reader.opened = .list start items :: outer ∧
          next = attach reader.finished
            (.list ⟨start, lexeme.extent.stop⟩ items.reverse) outer) := by
  rcases lexeme with ⟨token, extent⟩
  rcases reader with ⟨opened, finished⟩
  simp only [step] at stepped
  split at stepped
  · cases stepped
  · rename_i awaits
    refine ⟨awaits, ?_⟩
    split at stepped
    · cases stepped
      exact Or.inl ⟨rfl, rfl⟩
    · cases stepped
      exact Or.inr (Or.inl ⟨_, rfl, rfl⟩)
    · cases stepped
      exact Or.inr (Or.inr (Or.inl ⟨_, .word, rfl⟩))
    · cases stepped
      exact Or.inr (Or.inr (Or.inl ⟨_, .text, rfl⟩))
    · cases stepped
      exact Or.inr (Or.inr (Or.inr ⟨_, _, _, rfl, rfl, rfl⟩))
    · cases stepped

/-! ### What the grammar allows is read -/

/-- Where a form may stand, the tokens of a form are read as that form. -/
theorem advance_written {form : Form} (written : form.Written lexemes)
    (awaits : reader.expects goal ≠ .finish) (rest : List Lexeme) :
    reader.advance goal (lexemes ++ rest) =
      (attach reader.finished form reader.opened).advance goal rest := by
  induction written generalizing reader rest with
  | word => exact advance_cons_of_step (by simp [step, awaits]) rest
  | text => exact advance_cons_of_step (by simp [step, awaits]) rest
  | marked _ ih =>
      rw [List.cons_append, advance_cons_of_step (by simp only [step, if_neg awaits]; rfl),
        ih (by simp [expects_opened])]
      rfl
  | @list first last parts each ih =>
      have items : ∀ before, (⟨.list first.start before :: reader.opened, reader.finished⟩ :
          Reader).advance goal (parts.flatMap Prod.snd ++ ⟨.closing, last⟩ :: rest) =
          (⟨.list first.start ((parts.map Prod.fst).reverse ++ before) :: reader.opened,
            reader.finished⟩ : Reader).advance goal (⟨.closing, last⟩ :: rest) := by
        -- the items are taken in one after the other, behind those that were there before
        clear each
        induction parts with
        | nil => simp
        | cons part parts ihParts =>
            intro before
            rw [List.forall_mem_cons] at ih
            rw [List.flatMap_cons, List.append_assoc, ih.1 (by simp [expects_opened]), attach,
              ihParts ih.2]
            simp
      rw [List.cons_append, advance_cons_of_step (by simp only [step, if_neg awaits]; rfl),
        List.append_assoc, List.singleton_append, items,
        advance_cons_of_step (by simp only [step, expects_opened]; rfl)]
      simp

/-- A program is read form by form. -/
theorem advance_writtenEach {forms : List Form} (written : Form.WrittenEach forms lexemes)
    (finished : List Form) :
    (⟨[], finished⟩ : Reader).advance .program lexemes = .ok ⟨[], forms.reverse ++ finished⟩ := by
  rcases written with ⟨parts, each, rfl, rfl⟩
  induction parts generalizing finished with
  | nil => rfl
  | cons part parts ih =>
      rw [List.forall_mem_cons] at each
      rw [List.flatMap_cons, advance_written each.1 (by simp [expects]), attach, ih _ each.2]
      simp

/-! ### What is read is allowed by the grammar -/

/-- The tokens of what is open, innermost first. -/
inductive OpenedAs : List Opened → List Lexeme → Prop where
  | nothing : OpenedAs [] []
  | list {outer : List Opened} {before inside : List Lexeme} {first : Extent} {items : List Form}
      (opened : OpenedAs outer before) (written : Form.WrittenEach items.reverse inside) :
      OpenedAs (.list first.start items :: outer) (before ++ ⟨.opening, first⟩ :: inside)
  | mark {outer : List Opened} {before : List Lexeme} {extent : Extent} {mark : Mark}
      (opened : OpenedAs outer before) :
      OpenedAs (.mark extent.start mark :: outer) (before ++ [⟨.mark mark, extent⟩])

/-- The tokens taken so far are those of the finished forms, followed by those of what is open. -/
def Holds (reader : Reader) (lexemes : List Lexeme) : Prop :=
  ∃ done pending, done ++ pending = lexemes ∧ Form.WrittenEach reader.finished.reverse done ∧
    OpenedAs reader.opened pending

theorem holds_attach {finished : List Form} {opened : List Opened} {form : Form}
    {done pending : List Lexeme} (writtenDone : Form.WrittenEach finished.reverse done)
    (openedAs : OpenedAs opened pending) (written : form.Written lexemes) :
    (attach finished form opened).Holds (done ++ pending ++ lexemes) := by
  induction openedAs generalizing form lexemes with
  | nothing =>
      refine ⟨done ++ lexemes, [], by simp, ?_, .nothing⟩
      rw [attach, List.reverse_cons]
      exact writtenDone.append (.singleton written)
  | @list outer before inside first items opened writtenItems _ =>
      refine ⟨done, before ++ ⟨.opening, first⟩ :: (inside ++ lexemes), by simp, writtenDone, ?_⟩
      apply OpenedAs.list opened
      rw [List.reverse_cons]
      exact writtenItems.append (.singleton written)
  | @mark outer before extent mark opened ih =>
      have marked : (Form.marked ⟨extent.start, form.extent.stop⟩ mark form).Written
          (⟨.mark mark, extent⟩ :: lexemes) := .marked written
      simpa [attach] using ih marked

theorem Holds.step {lexeme : Lexeme} (holds : reader.Holds lexemes)
    (stepped : reader.step goal lexeme = .ok next) : next.Holds (lexemes ++ [lexeme]) := by
  rcases holds with ⟨done, pending, rfl, writtenDone, openedAs⟩
  rcases step_cases stepped with ⟨_, ⟨isOpening, rfl⟩ | ⟨mark, isMark, rfl⟩ | ⟨form, written, rfl⟩ |
    ⟨start, items, outer, isClosing, isOpened, rfl⟩⟩
  · rcases lexeme with ⟨token, extent⟩
    subst isOpening
    have opens : OpenedAs (.list extent.start [] :: reader.opened)
        (pending ++ [⟨.opening, extent⟩]) := .list openedAs .nil
    exact ⟨done, _, by simp, writtenDone, opens⟩
  · rcases lexeme with ⟨token, extent⟩
    subst isMark
    exact ⟨done, pending ++ [⟨.mark mark, extent⟩], by simp, writtenDone, .mark openedAs⟩
  · exact holds_attach writtenDone openedAs written
  · rcases lexeme with ⟨token, extent⟩
    subst isClosing
    rw [isOpened] at openedAs
    cases openedAs with
    | @list _ before inside first _ opened writtenItems =>
        have written : (Form.list ⟨first.start, extent.stop⟩ items.reverse).Written
            (⟨.opening, first⟩ :: (inside ++ [⟨.closing, extent⟩])) := .list_of_each writtenItems
        simpa using holds_attach writtenDone opened written

theorem Holds.advance {taken : List Lexeme} (holds : reader.Holds taken)
    (advanced : reader.advance goal lexemes = .ok next) : next.Holds (taken ++ lexemes) := by
  induction lexemes generalizing reader taken with
  | nil =>
      cases advanced
      simpa using holds
  | cons lexeme lexemes ih =>
      rw [Reader.advance, List.foldlM_cons] at advanced
      rcases bind_eq_ok_iff.mp advanced with ⟨middle, stepped, advanced⟩
      simpa using ih (holds.step stepped) advanced

/-- Towards a single form, nothing is open any more once a form is finished. -/
def AtMostOne (reader : Reader) : Prop :=
  reader.finished = [] ∨ reader.opened = [] ∧ ∃ form, reader.finished = [form]

theorem atMostOne_attach (form : Form) (opened : List Opened) :
    (attach [] form opened).AtMostOne := by
  induction opened generalizing form with
  | nil => exact Or.inr ⟨rfl, form, rfl⟩
  | cons innermost outer ih =>
      cases innermost with
      | list start items => exact Or.inl rfl
      | mark start mark => exact ih _

theorem AtMostOne.advance (atMostOne : reader.AtMostOne)
    (advanced : reader.advance .single lexemes = .ok next) : next.AtMostOne := by
  induction lexemes generalizing reader with
  | nil =>
      cases advanced
      exact atMostOne
  | cons lexeme lexemes ih =>
      rw [Reader.advance, List.foldlM_cons] at advanced
      rcases bind_eq_ok_iff.mp advanced with ⟨middle, stepped, advanced⟩
      refine ih ?_ advanced
      rcases step_cases stepped with ⟨awaits, did⟩
      have noneFinished : reader.finished = [] := by
        rcases atMostOne with noneFinished | ⟨noneOpened, form, isFinished⟩
        · exact noneFinished
        · simp [expects, noneOpened, isFinished] at awaits
      rw [noneFinished] at did
      rcases did with ⟨_, rfl⟩ | ⟨_, _, rfl⟩ | ⟨form, _, rfl⟩ | ⟨_, _, _, _, _, rfl⟩
      · exact Or.inl rfl
      · exact Or.inl rfl
      · exact atMostOne_attach form _
      · exact atMostOne_attach _ _

/-- Reading can end where nothing is open, and where a single form is asked for, one is there. -/
theorem finish_eq_ok_iff {ending : ScanEnd} {forms : List Form} :
    reader.finish goal ending = .ok forms ↔
      (∃ stop, ending = .complete stop) ∧ reader.opened = [] ∧
        (goal = .single → reader.finished ≠ []) ∧ reader.finished.reverse = forms := by
  rcases reader with ⟨opened, finished⟩
  cases ending with
  | stuck offset => simp [finish]
  | complete offset =>
      cases opened with
      | cons innermost outer => simp [finish, expects_opened]
      | nil => cases goal <;> cases finished <;> simp [finish, expects]

end Reader

/-- Reading a text gives exactly the forms that its tokens are the writing of. -/
theorem readForms_eq_ok_iff {goal : Goal} {source : List Char} {forms : List Form} :
    readForms goal source = .ok forms ↔
      ∃ lexemes, Splits 0 source lexemes ∧ Form.WrittenEach forms lexemes ∧
        (goal = .single → ∃ form, forms = [form]) := by
  constructor
  · intro isRead
    rcases bind_eq_ok_iff.mp isRead with ⟨reader, advanced, finished⟩
    rcases Reader.finish_eq_ok_iff.mp finished with ⟨⟨stop, complete⟩, noneOpened, some, rfl⟩
    have started : Reader.initial.Holds [] := ⟨[], [], rfl, .nil, .nothing⟩
    rcases started.advance advanced with ⟨done, pending, allEq, written, openedAs⟩
    rw [noneOpened] at openedAs
    cases openedAs
    rw [List.append_nil, List.nil_append] at allEq
    subst allEq
    refine ⟨_, .of_complete complete, written, ?_⟩
    rintro rfl
    have startedEmpty : Reader.initial.AtMostOne := Or.inl rfl
    rcases startedEmpty.advance advanced with noneFinished | ⟨_, form, isFinished⟩
    · exact absurd noneFinished (some rfl)
    · exact ⟨form, by simp [isFinished]⟩
  · rintro ⟨lexemes, split, written, single⟩
    rw [readForms, split.ofText_eq]
    apply bind_eq_ok_iff.mpr
    cases goal with
    | program =>
        exact ⟨_, Reader.advance_writtenEach written [], Reader.finish_eq_ok_iff.mpr (by simp)⟩
    | single =>
        rcases single rfl with ⟨form, rfl⟩
        have advanced : Reader.initial.advance .single (lexemes ++ []) = .ok ⟨[], [form]⟩ :=
          Reader.advance_written written.of_singleton (by simp [Reader.initial, Reader.expects]) []
        rw [List.append_nil] at advanced
        exact ⟨_, advanced, Reader.finish_eq_ok_iff.mpr (by simp)⟩

/-! ### Parsing -/

theorem parseText_accepts_iff {goal : Goal} {source : List Char} :
    (∀ position line expectation,
      parseText goal source ≠ .error (.malformed position line expectation)) ↔
      ∃ forms, readForms goal source = .ok forms := by
  rw [parseText]
  cases readForms goal source with
  | error misread => simp [ParseError.ofMisread]
  | ok forms =>
      simp only [Except.ok.injEq, exists_eq', iff_true]
      intro position line expectation
      split <;> simp [ParseError.ofFault]

end ExactLisp
