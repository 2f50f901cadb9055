import ExactLisp.Proofs.Concatenation

/-!
# Layout

How the tokens of a text are spaced makes no difference to what is read. `LaidOut` says that a text
is made of some tokens with gaps around them, where only two words need a gap of some length. The
tokens of a text are the same for every way to see it so, and they can be laid out anew with any
other gaps (`laidOut_iff`).

Tokens that are found at other places are the writing of the same forms at other places
(`Form.WrittenEach.of_tokens`). To compare the two, all places are moved to the start of the text:
then the forms are equal, and so are their faults.
-/

namespace ExactLisp

/-- A gap between tokens: blanks and comments. A comment ends before the end of its line, which is a
blank; only the last gap of a text may end in a comment that nothing closes. -/
inductive Gap (last : Bool) : List Char → Prop where
  | nil : Gap last []
  | blank {c : Char} {rest : List Char} (isBlank : isBlankChar c) (gap : Gap last rest) :
      Gap last (c :: rest)
  | comment {body rest : List Char} {c : Char} (inLine : ∀ c ∈ body, endsLine c = false)
      (isEnd : endsLine c) (gap : Gap last (c :: rest)) : Gap last (';' :: (body ++ c :: rest))
  | unclosed {body : List Char} (isLast : last) (inLine : ∀ c ∈ body, endsLine c = false) :
      Gap last (';' :: body)

/-- Whether a token is a run of word characters. -/
def Token.isWord : Token → Bool
  | .word _ => true
  | _ => false

/-- A text is made of these tokens, in this order, with a gap before each and one at the end. The
gap between two words is not empty; `afterWord` tells whether a word stands before the text. -/
inductive LaidOut : Bool → List Token → List Char → Prop where
  | finish {afterWord : Bool} {gap : List Char} (isGap : Gap true gap) : LaidOut afterWord [] gap
  | token {afterWord : Bool} {token : Token} {tokens : List Token} {gap spelling rest : List Char}
      (isGap : Gap false gap) (apart : afterWord → token.isWord → gap ≠ [])
      (spelled : token.Spelled spelling) (laidOut : LaidOut token.isWord tokens rest) :
      LaidOut afterWord (token :: tokens) (gap ++ (spelling ++ rest))

/-! ### Tokens -/

theorem isBlankChar_of_endsLine {c : Char} (isEnd : endsLine c) : isBlankChar c := by
  simp only [endsLine, Bool.or_eq_true, beq_iff_eq] at isEnd
  rcases isEnd with rfl | rfl <;> rfl

theorem not_isWordChar_of_blank {c : Char} (isBlank : isBlankChar c) : isWordChar c = false := by
  simp only [isBlankChar, Bool.or_eq_true, beq_iff_eq] at isBlank
  rcases isBlank with ((rfl | rfl) | rfl) | rfl <;> rfl

section Tokens

variable {last afterWord : Bool} {offset : Nat} {c : Char} {gap spelling text rest : List Char}
  {token : Token} {tokens : List Token} {lexemes : List Lexeme}

theorem Gap.head_not_word (isGap : Gap last gap) : ∀ c ∈ gap.head?, isWordChar c = false := by
  rintro c isHead
  cases isGap with
  | nil => cases isHead
  | blank isBlank _ =>
      cases isHead
      exact not_isWordChar_of_blank isBlank
  | comment _ _ _ =>
      cases isHead
      rfl
  | unclosed _ _ =>
      cases isHead
      rfl

theorem Gap.splits (isGap : Gap last gap) (isLast : last → rest = [] ∧ lexemes = [])
    (split : Splits (offset + gap.length) rest lexemes) : Splits offset (gap ++ rest) lexemes := by
  induction isGap generalizing offset with
  | nil => exact split
  | @blank c others isBlank _ ih =>
      refine .blank isBlank (ih ?_)
      rwa [List.length_cons, Nat.add_comm others.length, ← Nat.add_assoc] at split
  | @comment body others c inLine isEnd _ ih =>
      rw [List.cons_append, List.append_assoc]
      refine .comment inLine (by simpa using isEnd) (ih ?_)
      simp only [List.length_cons, List.length_append] at split ⊢
      rwa [show offset + (body.length + (others.length + 1) + 1) =
        offset + 1 + body.length + (others.length + 1) by omega] at split
  | @unclosed body isTrue inLine =>
      rcases isLast isTrue with ⟨rfl, rfl⟩
      rw [List.append_nil, ← List.append_nil body]
      exact .comment inLine (by simp) .done

theorem Token.Spelled.head (spelled : token.Spelled spelling) : ∃ c chars, spelling = c :: chars ∧
    isBlankChar c = false ∧ isWordChar c = token.isWord := by
  cases spelled with
  | @word run nonempty chars =>
      rcases List.exists_cons_of_ne_nil nonempty with ⟨c, others, rfl⟩
      have isWord := chars c List.mem_cons_self
      refine ⟨c, others, rfl, ?_, isWord⟩
      by_contra isBlank
      rw [not_isWordChar_of_blank (by simpa using isBlank)] at isWord
      cases isWord
  | _ => exact ⟨_, _, rfl, rfl, rfl⟩

theorem LaidOut.head_not_word (laidOut : LaidOut true tokens text) :
    ∀ c ∈ text.head?, isWordChar c = false := by
  cases laidOut with
  | finish isGap => exact isGap.head_not_word
  | @token _ token tokens gap spelling rest isGap apart spelled _ =>
      cases gap with
      | cons c others => exact isGap.head_not_word
      | nil =>
          rcases spelled.head with ⟨c, chars, rfl, _, sameWord⟩
          rintro _ ⟨⟩
          rw [sameWord]
          by_contra isWord
          exact apart rfl (by simpa using isWord) rfl

theorem LaidOut.splits (laidOut : LaidOut afterWord tokens text) (offset : Nat) :
    ∃ lexemes, Splits offset text lexemes ∧ lexemes.map Lexeme.token = tokens := by
  induction laidOut generalizing offset with
  | @finish _ gap isGap =>
      refine ⟨[], ?_, rfl⟩
      have split : Splits offset (gap ++ []) [] := isGap.splits (fun _ => ⟨rfl, rfl⟩) .done
      rwa [List.append_nil] at split
  | @token afterWord token tokens gap spelling rest isGap apart spelled laidOut ih =>
      rcases ih (offset + gap.length + spelling.length) with ⟨lexemes, split, rfl⟩
      have maximal : ∀ run, token = .word run → ∀ c ∈ rest.head?, isWordChar c = false := by
        rintro run rfl
        exact laidOut.head_not_word
      exact ⟨_, isGap.splits (by simp) (.token spelled maximal split), rfl⟩

theorem LaidOut.blank_before (isBlank : isBlankChar c) (laidOut : LaidOut false tokens text) :
    LaidOut afterWord tokens (c :: text) := by
  cases laidOut with
  | finish isGap => exact .finish (.blank isBlank isGap)
  | token isGap _ spelled laidOut =>
      exact .token (.blank isBlank isGap) (fun _ _ => List.cons_ne_nil _ _) spelled laidOut

theorem LaidOut.comment_before {body : List Char} (inLine : ∀ c ∈ body, endsLine c = false)
    (ended : ∀ c ∈ text.head?, endsLine c) (laidOut : LaidOut false tokens text) :
    LaidOut afterWord tokens (';' :: (body ++ text)) := by
  cases laidOut with
  | finish isGap =>
      cases text with
      | nil => exact .finish (.unclosed rfl (by simpa using inLine))
      | cons first rest => exact .finish (.comment inLine (ended first rfl) isGap)
  | @token _ token tokens gap spelling rest isGap _ spelled laidOut =>
      cases gap with
      | nil =>
          -- no token starts with the end of a line
          rcases spelled.head with ⟨first, chars, rfl, notBlank, _⟩
          rw [isBlankChar_of_endsLine (ended first rfl)] at notBlank
          cases notBlank
      | cons first gap =>
          have longer : Gap false (';' :: (body ++ first :: gap)) :=
            .comment inLine (ended first rfl) isGap
          have laid : LaidOut afterWord (token :: tokens)
              (';' :: (body ++ first :: gap) ++ (spelling ++ rest)) :=
            .token longer (fun _ _ => List.cons_ne_nil _ _) spelled laidOut
          simpa using laid

theorem Splits.laidOut (split : Splits offset text lexemes)
    (apart : afterWord → ∀ c ∈ text.head?, isWordChar c = false) :
    LaidOut afterWord (lexemes.map Lexeme.token) text := by
  induction split generalizing afterWord with
  | done => exact .finish .nil
  | blank isBlank _ ih => exact (ih (by simp)).blank_before isBlank
  | comment inLine ended _ ih => exact (ih (by simp)).comment_before inLine ended
  | @token offset token spelling rest lexemes spelled maximal _ ih =>
      have restApart : token.isWord → ∀ c ∈ rest.head?, isWordChar c = false := by
        intro isWord
        cases token with
        | word run => exact maximal run rfl
        | _ => cases isWord
      have noWordAfterWord : afterWord → token.isWord → ([] : List Char) ≠ [] := by
        intro isAfter isWord
        rcases spelled.head with ⟨c, chars, rfl, _, sameWord⟩
        have notWord := apart isAfter c rfl
        rw [sameWord, isWord] at notWord
        cases notWord
      exact .token .nil noWordAfterWord spelled (ih restApart)

/-- A text is laid out from the tokens that it splits into, and from no others. -/
theorem laidOut_iff : LaidOut false tokens text ↔
    ∃ lexemes, Splits 0 text lexemes ∧ lexemes.map Lexeme.token = tokens := by
  constructor
  · exact fun laidOut => laidOut.splits 0
  · rintro ⟨lexemes, split, rfl⟩
    exact split.laidOut (by simp)

end Tokens

/-! ### Forms -/

namespace Form

theorem WrittenEach.of_tokens_of {parts : List (Form × List Lexeme)}
    (each : ∀ part ∈ parts, ∀ others : List Lexeme,
      others.map Lexeme.token = part.2.map Lexeme.token → ∃ form : Form, form.Written others)
    {others : List Lexeme}
    (same : others.map Lexeme.token = (parts.flatMap Prod.snd).map Lexeme.token) :
    ∃ forms, WrittenEach forms others := by
  induction parts generalizing others with
  | nil =>
      cases List.map_eq_nil_iff.mp same
      exact ⟨[], .nil⟩
  | cons part parts ih =>
      rw [List.forall_mem_cons] at each
      rw [List.flatMap_cons, List.map_append] at same
      rcases List.map_eq_append_iff.mp same with ⟨first, rest, rfl, sameFirst, sameRest⟩
      rcases each.1 first sameFirst with ⟨form, written⟩
      rcases ih each.2 sameRest with ⟨forms, writtenRest⟩
      exact ⟨form :: forms, .append (.singleton written) writtenRest⟩

/-- Tokens that are those of a form, wherever they stand, are the writing of a form. -/
theorem Written.of_tokens {form : Form} {lexemes : List Lexeme} (written : form.Written lexemes)
    (others : List Lexeme) (same : others.map Lexeme.token = lexemes.map Lexeme.token) :
    ∃ other : Form, other.Written others := by
  induction written generalizing others with
  | word =>
      rcases List.map_eq_singleton_iff.mp same with ⟨⟨token, extent⟩, rfl, rfl⟩
      exact ⟨_, .word⟩
  | text =>
      rcases List.map_eq_singleton_iff.mp same with ⟨⟨token, extent⟩, rfl, rfl⟩
      exact ⟨_, .text⟩
  | marked _ ih =>
      rcases List.map_eq_cons_iff.mp same with ⟨⟨token, extent⟩, rest, rfl, rfl, sameRest⟩
      rcases ih rest sameRest with ⟨form, written⟩
      exact ⟨_, .marked written⟩
  | list _ ih =>
      rw [List.map_cons, List.map_append] at same
      rcases List.map_eq_cons_iff.mp same with ⟨⟨token, first⟩, rest, rfl, rfl, sameRest⟩
      rcases List.map_eq_append_iff.mp sameRest with ⟨inside, end_, rfl, sameInside, sameEnd⟩
      rcases List.map_eq_singleton_iff.mp sameEnd with ⟨⟨token, last⟩, rfl, rfl⟩
      rcases WrittenEach.of_tokens_of ih sameInside with ⟨items, writtenItems⟩
      exact ⟨_, .list_of_each writtenItems⟩

theorem WrittenEach.of_tokens {forms : List Form} {lexemes others : List Lexeme}
    (written : WrittenEach forms lexemes)
    (same : others.map Lexeme.token = lexemes.map Lexeme.token) :
    ∃ forms, WrittenEach forms others := by
  rcases written with ⟨parts, each, _, rfl⟩
  exact WrittenEach.of_tokens_of (fun part partMem => (each part partMem).of_tokens) same

/-- Forms that are written with the same tokens are turned into the same expressions, or fail with
the same problem. -/
theorem WrittenEach.toCodes_eq {forms others : List Form} {lexemes otherLexemes : List Lexeme}
    (written : WrittenEach forms lexemes) (writtenOthers : WrittenEach others otherLexemes)
    (same : otherLexemes.map Lexeme.token = lexemes.map Lexeme.token) :
    (toCodes others).mapError Fault.problem = (toCodes forms).mapError Fault.problem := by
  -- with all places moved to the start of the text, the tokens are equal, and so are the forms
  let start : Nat → Nat := fun _ => 0
  have moved : ∀ lexemes : List Lexeme, lexemes.map (Lexeme.relocate start) =
      (lexemes.map Lexeme.token).map fun token => ⟨token, ⟨0, 0⟩⟩ := by
    intro lexemes
    rw [List.map_map]
    rfl
  have writtenMoved := written.relocate start
  have writtenOthersMoved := writtenOthers.relocate start
  rw [moved, ← same, ← moved] at writtenMoved
  have codes := Form.toCodes_relocate start forms
  rw [writtenMoved.unique writtenOthersMoved, Form.toCodes_relocate] at codes
  cases forOthers : toCodes others <;> cases forForms : toCodes forms <;>
    simp_all [Except.mapError, Fault.relocate]

end Form

/-! ### Parsing -/

/-- Layout does not matter. A text that is a sequence of forms is laid out from one sequence of
tokens. Every text that is laid out from these tokens, with whatever gaps, is a sequence of forms
too, and it is parsed to the same expressions or fails with the same problem. -/
theorem layout_does_not_matter (source : String) (readable : ¬Malformed source) :
    ∃ tokens, (∀ others, LaidOut false others source.toList ↔ others = tokens) ∧
      ∀ other : String, LaidOut false tokens other.toList → ¬Malformed other ∧
        (∀ forms, parseForms other = .ok forms ↔ parseForms source = .ok forms) ∧
        ∀ problem, (∃ span, parseForms other = .error (.faulty problem span)) ↔
          ∃ span, parseForms source = .error (.faulty problem span) := by
  rcases not_malformed_iff.mp readable with ⟨forms, isRead⟩
  rcases readForms_eq_ok_iff.mp isRead with ⟨lexemes, split, written, _⟩
  refine ⟨lexemes.map Lexeme.token, ?_, ?_⟩
  · intro others
    rw [laidOut_iff]
    constructor
    · rintro ⟨found, splitFound, rfl⟩
      have sameScan := split.ofText_eq.symm.trans splitFound.ofText_eq
      cases sameScan
      rfl
    · rintro rfl
      exact ⟨lexemes, split, rfl⟩
  · intro other laidOut
    rcases laidOut_iff.mp laidOut with ⟨otherLexemes, splitOther, same⟩
    rcases written.of_tokens same with ⟨others, writtenOthers⟩
    have isReadOther : readForms .program other.toList = .ok others :=
      readForms_eq_ok_iff.mpr ⟨otherLexemes, splitOther, writtenOthers, by simp⟩
    have codes := written.toCodes_eq writtenOthers same
    refine ⟨not_malformed_iff.mpr ⟨others, isReadOther⟩, ?_⟩
    rw [parseForms_of_read isRead, parseForms_of_read isReadOther]
    cases forOther : Form.toCodes others <;> cases forSource : Form.toCodes forms <;>
      simp_all [Except.mapError, ParseError.ofFault]

theorem comments_between_touching_tokens_change_no_fault :
    ¬Malformed "(f 'a\"b\"(if))" ∧
    (∃ tokens, LaidOut false tokens "(f 'a\"b\"(if))".toList ∧
      LaidOut false tokens ";)\r(f ; (\n' a \"b\"( if;\"\n) );".toList) ∧
    parseForms "(f 'a\"b\"(if))" =
      .error (.faulty (.argumentCount .branch (.fixed 3) 0) ⟨⟨1, 9⟩, ⟨1, 13⟩, "(if)"⟩) ∧
    ∃ span, parseForms ";)\r(f ; (\n' a \"b\"( if;\"\n) );" =
      .error (.faulty (.argumentCount .branch (.fixed 3) 0) span) := by
  have failed : parseForms "(f 'a\"b\"(if))" =
      .error (.faulty (.argumentCount .branch (.fixed 3) 0) ⟨⟨1, 9⟩, ⟨1, 13⟩, "(if)"⟩) := by rfl
  have readable : ¬Malformed "(f 'a\"b\"(if))" := by
    rintro ⟨position, line, expectation, malformed⟩
    rw [failed] at malformed
    cases malformed
  have laidOut : LaidOut false [.opening, .word ['f'], .mark .quote, .word ['a'], .text ['b'],
      .opening, .word ['i', 'f'], .closing, .closing] "(f 'a\"b\"(if))".toList :=
    laidOut_iff.mpr ⟨_, Splits.of_complete rfl, by rfl⟩
  have laidOutOther : LaidOut false [.opening, .word ['f'], .mark .quote, .word ['a'], .text ['b'],
      .opening, .word ['i', 'f'], .closing, .closing]
      ";)\r(f ; (\n' a \"b\"( if;\"\n) );".toList :=
    laidOut_iff.mpr ⟨_, Splits.of_complete rfl, by rfl⟩
  rcases layout_does_not_matter _ readable with ⟨tokens, only, same⟩
  rw [← (only _).mp laidOut] at same
  rcases same _ laidOutOther with ⟨_, _, sameProblem⟩
  exact ⟨readable, ⟨_, laidOut, laidOutOther⟩, failed, (sameProblem _).mpr ⟨_, failed⟩⟩

end ExactLisp
