import ExactLisp.Reader.Token
import Mathlib.Tactic.SplitIfs

/-!
# How texts split into tokens

`Splits` says what it means for a text to be made of gaps and tokens, without a word about how the
tokens are found: blanks, comments that reach to the end of their line, and spelled tokens, of which
a word is not followed by a further word character. The scanner finds exactly these splits, each
token with the stretch it stands in (`Splits.ofText_eq`, `Splits.of_complete`). `Reaches` says the
same of the first part of a text, with what remains of it in view.

The scanner works character by character. `ScanMode.Leads` says for each of its modes what the rest
of the text has to be for the scan to be complete.
-/

namespace ExactLisp

/-- The characters that end a comment. -/
def endsLine (c : Char) : Bool :=
  c == '\n' || c == '\r'

/-- What may stand between quotation marks: a backslash takes the character after it, whatever it
is, and no other quotation mark or backslash occurs. -/
inductive TextBody : List Char → Prop where
  | nil : TextBody []
  | plain {c : Char} {rest : List Char} (notMark : c ≠ '"') (notEscape : c ≠ '\\')
      (body : TextBody rest) : TextBody (c :: rest)
  | escape {c : Char} {rest : List Char} (body : TextBody rest) : TextBody ('\\' :: c :: rest)

/-- How tokens are written. -/
inductive Token.Spelled : Token → List Char → Prop where
  | opening : Spelled .opening ['(']
  | closing : Spelled .closing [')']
  | quote : Spelled (.mark .quote) ['\'']
  | unquote : Spelled (.mark .unquote) [',']
  | text {raw : List Char} (body : TextBody raw) : Spelled (.text raw) ('"' :: (raw ++ ['"']))
  | word {run : List Char} (nonempty : run ≠ []) (chars : ∀ c ∈ run, isWordChar c) :
      Spelled (.word run) run

/-- A text that starts at `offset` is made of gaps and of these tokens, in this order. A comment
ends before a line end or at the end of the text, and a word takes all word characters in reach. -/
inductive Splits : Nat → List Char → List Lexeme → Prop where
  | done {offset : Nat} : Splits offset [] []
  | blank {offset : Nat} {c : Char} {rest : List Char} {lexemes : List Lexeme}
      (isBlank : isBlankChar c) (split : Splits (offset + 1) rest lexemes) :
      Splits offset (c :: rest) lexemes
  | comment {offset : Nat} {body rest : List Char} {lexemes : List Lexeme}
      (inLine : ∀ c ∈ body, endsLine c = false) (ended : ∀ c ∈ rest.head?, endsLine c)
      (split : Splits (offset + 1 + body.length) rest lexemes) :
      Splits offset (';' :: (body ++ rest)) lexemes
  | token {offset : Nat} {token : Token} {spelling rest : List Char} {lexemes : List Lexeme}
      (spelled : token.Spelled spelling)
      (maximal : ∀ run, token = .word run → ∀ c ∈ rest.head?, isWordChar c = false)
      (split : Splits (offset + spelling.length) rest lexemes) :
      Splits offset (spelling ++ rest) (⟨token, ⟨offset, offset + spelling.length⟩⟩ :: lexemes)

/-- A text that starts at `offset` begins with gaps and these tokens, and `left` remains of it at
`stop`. What remains decides where the last word or comment ends, as it does in the whole text. -/
inductive Reaches (stop : Nat) (left : List Char) : Nat → List Char → List Lexeme → Prop where
  | here : Reaches stop left stop left []
  | blank {offset : Nat} {c : Char} {rest : List Char} {lexemes : List Lexeme}
      (isBlank : isBlankChar c) (reaches : Reaches stop left (offset + 1) rest lexemes) :
      Reaches stop left offset (c :: rest) lexemes
  | comment {offset : Nat} {body rest : List Char} {lexemes : List Lexeme}
      (inLine : ∀ c ∈ body, endsLine c = false) (ended : ∀ c ∈ rest.head?, endsLine c)
      (reaches : Reaches stop left (offset + 1 + body.length) rest lexemes) :
      Reaches stop left offset (';' :: (body ++ rest)) lexemes
  | token {offset : Nat} {token : Token} {spelling rest : List Char} {lexemes : List Lexeme}
      (spelled : token.Spelled spelling)
      (maximal : ∀ run, token = .word run → ∀ c ∈ rest.head?, isWordChar c = false)
      (reaches : Reaches stop left (offset + spelling.length) rest lexemes) :
      Reaches stop left offset (spelling ++ rest)
        (⟨token, ⟨offset, offset + spelling.length⟩⟩ :: lexemes)

/-- Every token of a split is spelled somehow. -/
theorem Splits.spelled {offset : Nat} {text : List Char} {lexemes : List Lexeme}
    (split : Splits offset text lexemes) :
    ∀ lexeme ∈ lexemes, ∃ spelling, lexeme.token.Spelled spelling := by
  induction split with
  | done => simp
  | blank _ _ ih => exact ih
  | comment _ _ _ ih => exact ih
  | token spelled _ _ ih => exact List.forall_mem_cons.mpr ⟨⟨_, spelled⟩, ih⟩

namespace Scanner

variable {offset start : Nat} {found : List Lexeme} {seen rest : List Char}

/-- What a character outside of tokens can be: a blank, the start of a comment, a token of its own,
the start of a string literal or of a word, or nothing that the grammar knows. -/
theorem stepGap_cases (offset : Nat) (found : List Lexeme) (c : Char) :
    isBlankChar c ∧ stepGap offset found c = ⟨.gap, offset + 1, found⟩ ∨
    c = ';' ∧ stepGap offset found c = ⟨.comment, offset + 1, found⟩ ∨
    (∃ token : Token, token.Spelled [c] ∧ (∀ run, token ≠ .word run) ∧ stepGap offset found c =
      ⟨.gap, offset + 1, ⟨token, ⟨offset, offset + 1⟩⟩ :: found⟩) ∨
    c = '"' ∧ stepGap offset found c = ⟨.text offset [], offset + 1, found⟩ ∨
    isWordChar c ∧ stepGap offset found c = ⟨.word offset [c], offset + 1, found⟩ ∨
    stepGap offset found c = ⟨.stuck offset, offset + 1, found⟩ := by
  unfold stepGap
  by_cases isBlank : isBlankChar c
  · exact Or.inl ⟨isBlank, if_pos isBlank⟩
  rw [if_neg isBlank]
  by_cases isComment : c = ';'
  · exact Or.inr (Or.inl ⟨isComment, if_pos isComment⟩)
  rw [if_neg isComment]
  refine Or.inr (Or.inr ?_)
  by_cases isOpening : c = '('
  · exact Or.inl ⟨.opening, isOpening ▸ .opening, by simp, if_pos isOpening⟩
  rw [if_neg isOpening]
  by_cases isClosing : c = ')'
  · exact Or.inl ⟨.closing, isClosing ▸ .closing, by simp, if_pos isClosing⟩
  rw [if_neg isClosing]
  by_cases isQuote : c = '\''
  · exact Or.inl ⟨.mark .quote, isQuote ▸ .quote, by simp, if_pos isQuote⟩
  rw [if_neg isQuote]
  by_cases isUnquote : c = ','
  · exact Or.inl ⟨.mark .unquote, isUnquote ▸ .unquote, by simp, if_pos isUnquote⟩
  rw [if_neg isUnquote]
  by_cases isText : c = '"'
  · exact Or.inr (Or.inl ⟨isText, if_pos isText⟩)
  rw [if_neg isText]
  by_cases isWord : isWordChar c
  · exact Or.inr (Or.inr (Or.inl ⟨isWord, if_pos isWord⟩))
  · exact Or.inr (Or.inr (Or.inr (if_neg isWord)))

theorem offset_stepGap (offset : Nat) (found : List Lexeme) (c : Char) :
    (stepGap offset found c).offset = offset + 1 := by
  rcases stepGap_cases offset found c with ⟨_, same⟩ | ⟨_, same⟩ | ⟨_, _, _, same⟩ | ⟨_, same⟩ |
    ⟨_, same⟩ | same <;> rw [same]

theorem offset_step (scanner : Scanner) (c : Char) :
    (scanner.step c).offset = scanner.offset + 1 := by
  rcases scanner with ⟨mode, offset, found⟩
  cases mode with
  | gap => exact offset_stepGap offset found c
  | comment =>
      simp only [step]
      split <;> rfl
  | word start seen =>
      simp only [step]
      split
      · rfl
      · exact offset_stepGap offset _ c
  | text start seen =>
      simp only [step]
      split
      · rfl
      · split <;> rfl
  | escape start seen => rfl
  | stuck place => rfl

theorem stepGap_blank {c : Char} (isBlank : isBlankChar c) :
    stepGap offset found c = ⟨.gap, offset + 1, found⟩ := by
  simp [stepGap, isBlank]

theorem stepGap_word {c : Char} (isWord : isWordChar c) :
    stepGap offset found c = ⟨.word offset [c], offset + 1, found⟩ := by
  have differs : ∀ other : Char, isWordChar other = false → c ≠ other := by
    rintro other notWord rfl
    simp [notWord] at isWord
  have notBlank : isBlankChar c = false := by
    simp [isBlankChar, differs ' ' rfl, differs '\t' rfl, differs '\r' rfl, differs '\n' rfl]
  simp [stepGap, notBlank, isWord, differs ';' rfl, differs '(' rfl, differs ')' rfl,
    differs '\'' rfl, differs ',' rfl, differs '"' rfl]

/-! ### What the grammar allows is found -/

theorem advance_comment {body : List Char} (inLine : ∀ c ∈ body, endsLine c = false) :
    (⟨.comment, offset, found⟩ : Scanner).advance body =
      ⟨.comment, offset + body.length, found⟩ := by
  induction body generalizing offset with
  | nil => rfl
  | cons c body ih =>
      rw [List.forall_mem_cons] at inLine
      have stays : (⟨.comment, offset, found⟩ : Scanner).step c =
          ⟨.comment, offset + 1, found⟩ := by
        have notEnd := inLine.1
        simp only [endsLine, Bool.or_eq_false_iff, beq_eq_false_iff_ne] at notEnd
        simp [step, notEnd]
      rw [advance, List.foldl_cons, stays, ← advance, ih inLine.2, List.length_cons]
      congr 1
      omega

theorem advance_word {run : List Char} (chars : ∀ c ∈ run, isWordChar c) :
    (⟨.word start seen, offset, found⟩ : Scanner).advance run =
      ⟨.word start (run.reverse ++ seen), offset + run.length, found⟩ := by
  induction run generalizing offset seen with
  | nil => rfl
  | cons c run ih =>
      rw [List.forall_mem_cons] at chars
      have stays : (⟨.word start seen, offset, found⟩ : Scanner).step c =
          ⟨.word start (c :: seen), offset + 1, found⟩ := by
        simp [step, chars.1]
      rw [advance, List.foldl_cons, stays, ← advance, ih chars.2, List.length_cons]
      simp only [List.reverse_cons, List.append_assoc, List.singleton_append]
      congr 1
      omega

theorem advance_text {raw : List Char} (body : TextBody raw) :
    (⟨.text start seen, offset, found⟩ : Scanner).advance raw =
      ⟨.text start (raw.reverse ++ seen), offset + raw.length, found⟩ := by
  induction body generalizing offset seen with
  | nil => rfl
  | @plain c rest notMark notEscape _ ih =>
      have stays : (⟨.text start seen, offset, found⟩ : Scanner).step c =
          ⟨.text start (c :: seen), offset + 1, found⟩ := by
        simp [step, notMark, notEscape]
      rw [advance, List.foldl_cons, stays, ← advance, ih, List.length_cons]
      simp only [List.reverse_cons, List.append_assoc, List.singleton_append]
      congr 1
      omega
  | @escape c rest _ ih =>
      have stays : ((⟨.text start seen, offset, found⟩ : Scanner).step '\\').step c =
          ⟨.text start (c :: '\\' :: seen), offset + 2, found⟩ := by
        simp [step]
      rw [advance, List.foldl_cons, List.foldl_cons, stays, ← advance, ih]
      simp only [List.reverse_cons, List.append_assoc, List.length_cons, List.cons_append,
        List.nil_append]
      congr 1
      omega

/-- A word that cannot go on is as good as found. -/
theorem finish_advance_word (maximal : ∀ c ∈ rest.head?, isWordChar c = false) :
    ((⟨.word start seen, offset, found⟩ : Scanner).advance rest).finish =
      ((⟨.gap, offset, wordLexeme start seen offset :: found⟩ : Scanner).advance rest).finish := by
  cases rest with
  | nil => rfl
  | cons c rest =>
      have notWord : isWordChar c = false := maximal c rfl
      have same : (⟨.word start seen, offset, found⟩ : Scanner).step c =
          (⟨.gap, offset, wordLexeme start seen offset :: found⟩ : Scanner).step c := by
        simp [step, notWord]
      rw [advance, List.foldl_cons, same]
      rfl

/-- A comment that is over is a gap. -/
theorem finish_advance_comment (ended : ∀ c ∈ rest.head?, endsLine c) :
    ((⟨.comment, offset, found⟩ : Scanner).advance rest).finish =
      ((⟨.gap, offset, found⟩ : Scanner).advance rest).finish := by
  cases rest with
  | nil => rfl
  | cons c rest =>
      have isEnd : endsLine c := ended c rfl
      have same : (⟨.comment, offset, found⟩ : Scanner).step c =
          (⟨.gap, offset, found⟩ : Scanner).step c := by
        simp only [endsLine, Bool.or_eq_true, beq_iff_eq] at isEnd
        rcases isEnd with rfl | rfl <;> simp [step, stepGap, isBlankChar]
      rw [advance, List.foldl_cons, same]
      rfl

/-- From a gap, a spelled token is found and leads to a gap again. -/
theorem finish_advance_token {token : Token} {spelling : List Char}
    (spelled : token.Spelled spelling)
    (maximal : ∀ run, token = .word run → ∀ c ∈ rest.head?, isWordChar c = false) :
    ((⟨.gap, offset, found⟩ : Scanner).advance (spelling ++ rest)).finish =
      ((⟨.gap, offset + spelling.length,
        ⟨token, ⟨offset, offset + spelling.length⟩⟩ :: found⟩ : Scanner).advance rest).finish := by
  cases spelled with
  | opening => rfl
  | closing => rfl
  | quote => rfl
  | unquote => rfl
  | @text raw body =>
      have opens : (⟨.gap, offset, found⟩ : Scanner).step '"' =
          ⟨.text offset [], offset + 1, found⟩ := rfl
      rw [List.cons_append, List.append_assoc, advance, List.foldl_cons, opens, ← advance,
        advance_append, advance_text body, List.singleton_append, advance, List.foldl_cons]
      simp only [step, if_pos, List.append_nil, List.reverse_reverse, List.length_append,
        List.length_cons, List.length_nil]
      rw [show offset + (raw.length + 1 + (0 + 1)) = offset + 1 + raw.length + 1 by omega]
      rfl
  | word nonempty chars =>
      rcases List.exists_cons_of_ne_nil nonempty with ⟨c, run, rfl⟩
      rw [List.forall_mem_cons] at chars
      have opens : (⟨.gap, offset, found⟩ : Scanner).step c =
          ⟨.word offset [c], offset + 1, found⟩ := stepGap_word chars.1
      rw [List.cons_append, advance, List.foldl_cons, opens, ← advance, advance_append,
        advance_word chars.2, finish_advance_word (maximal _ rfl)]
      simp only [wordLexeme, List.reverse_append, List.reverse_reverse, List.reverse_singleton,
        List.singleton_append, List.length_cons]
      rw [show offset + (run.length + 1) = offset + 1 + run.length by omega]

end Scanner

/-- The scanner finds the tokens that a text begins with, and goes on where they end. -/
theorem Reaches.finish_advance {offset stop : Nat} {text left : List Char} {lexemes : List Lexeme}
    (reaches : Reaches stop left offset text lexemes) (found : List Lexeme) :
    ((⟨.gap, offset, found⟩ : Scanner).advance text).finish =
      ((⟨.gap, stop, lexemes.reverse ++ found⟩ : Scanner).advance left).finish := by
  induction reaches generalizing found with
  | here => rfl
  | @blank offset c rest lexemes isBlank _ ih =>
      have opens : (⟨.gap, offset, found⟩ : Scanner).step c = ⟨.gap, offset + 1, found⟩ :=
        Scanner.stepGap_blank isBlank
      rw [Scanner.advance, List.foldl_cons, opens, ← Scanner.advance, ih]
  | @comment offset body rest lexemes inLine ended _ ih =>
      have opens : (⟨.gap, offset, found⟩ : Scanner).step ';' = ⟨.comment, offset + 1, found⟩ := rfl
      rw [Scanner.advance, List.foldl_cons, opens, ← Scanner.advance, Scanner.advance_append,
        Scanner.advance_comment inLine, Scanner.finish_advance_comment ended, ih]
  | token spelled maximal _ ih =>
      rw [Scanner.finish_advance_token spelled maximal, ih, List.reverse_cons, List.append_assoc]
      rfl

theorem Splits.reaches {offset : Nat} {text : List Char} {lexemes : List Lexeme}
    (split : Splits offset text lexemes) :
    Reaches (offset + text.length) [] offset text lexemes := by
  induction split with
  | done => exact .here
  | blank isBlank _ ih =>
      rw [List.length_cons, Nat.add_comm _ 1, ← Nat.add_assoc]
      exact .blank isBlank ih
  | comment inLine ended _ ih =>
      rw [List.length_cons, List.length_append, Nat.add_comm _ 1, ← Nat.add_assoc, ← Nat.add_assoc]
      exact .comment inLine ended ih
  | token spelled maximal _ ih =>
      rw [List.length_append, ← Nat.add_assoc]
      exact .token spelled maximal ih

/-- A split is found by the scanner. -/
theorem Splits.finish_advance {offset : Nat} {text : List Char} {lexemes : List Lexeme}
    (split : Splits offset text lexemes) (found : List Lexeme) :
    ((⟨.gap, offset, found⟩ : Scanner).advance text).finish =
      ⟨found.reverse ++ lexemes, .complete (offset + text.length)⟩ := by
  rw [split.reaches.finish_advance]
  simp [Scanner.advance, Scanner.finish]

/-! ### What is found is allowed by the grammar -/

/-- What the rest of a text has to be for a complete scan that is now in a mode. -/
def ScanMode.Leads (offset : Nat) (text : List Char) (lexemes : List Lexeme) : ScanMode → Prop
  | .gap => Splits offset text lexemes
  | .comment => ∃ body rest stop, text = body ++ rest ∧ stop = offset + body.length ∧
      (∀ c ∈ body, endsLine c = false) ∧ (∀ c ∈ rest.head?, endsLine c) ∧
      Splits stop rest lexemes
  | .word start seen => ∃ run rest stop others, text = run ++ rest ∧ stop = offset + run.length ∧
      (∀ c ∈ run, isWordChar c) ∧ (∀ c ∈ rest.head?, isWordChar c = false) ∧
      Splits stop rest others ∧ lexemes = ⟨.word (seen.reverse ++ run), ⟨start, stop⟩⟩ :: others
  | .text start seen => ∃ raw rest stop others, text = raw ++ '"' :: rest ∧
      stop = offset + raw.length + 1 ∧ TextBody raw ∧
      Splits stop rest others ∧ lexemes = ⟨.text (seen.reverse ++ raw), ⟨start, stop⟩⟩ :: others
  | .escape start seen => ∃ c raw rest stop others, text = c :: (raw ++ '"' :: rest) ∧
      stop = offset + raw.length + 2 ∧ TextBody raw ∧ Splits stop rest others ∧
      lexemes = ⟨.text (seen.reverse ++ c :: raw), ⟨start, stop⟩⟩ :: others
  | .stuck _ => False

theorem Splits.comment_before {offset stop : Nat} {body rest : List Char} {lexemes : List Lexeme}
    (inLine : ∀ c ∈ body, endsLine c = false) (ended : ∀ c ∈ rest.head?, endsLine c)
    (stopEq : stop = offset + 1 + body.length) (split : Splits stop rest lexemes) :
    Splits offset (';' :: (body ++ rest)) lexemes := by
  subst stopEq
  exact .comment inLine ended split

theorem Splits.token_before {offset stop : Nat} {token : Token} {spelling rest : List Char}
    {lexemes : List Lexeme} (spelled : token.Spelled spelling)
    (maximal : ∀ run, token = .word run → ∀ c ∈ rest.head?, isWordChar c = false)
    (stopEq : stop = offset + spelling.length) (split : Splits stop rest lexemes) :
    Splits offset (spelling ++ rest) (⟨token, ⟨offset, stop⟩⟩ :: lexemes) := by
  subst stopEq
  exact .token spelled maximal split

/-- A scan that goes on well after a character in a gap started well. -/
theorem Splits.of_stepGap {offset : Nat} {found : List Lexeme} {c : Char} {rest : List Char}
    {lexemes : List Lexeme}
    (leads : (Scanner.stepGap offset found c).mode.Leads (offset + 1) rest lexemes) :
    ∃ more, (Scanner.stepGap offset found c).found.reverse ++ lexemes = found.reverse ++ more ∧
      Splits offset (c :: rest) more := by
  rcases Scanner.stepGap_cases offset found c with ⟨isBlank, same⟩ | ⟨rfl, same⟩ |
    ⟨token, spelled, notWord, same⟩ | ⟨rfl, same⟩ | ⟨isWord, same⟩ | same <;>
      rw [same] at leads ⊢
  · exact ⟨lexemes, rfl, .blank isBlank leads⟩
  · rcases leads with ⟨body, rest, stop, rfl, stopEq, inLine, ended, split⟩
    exact ⟨lexemes, rfl, .comment_before inLine ended stopEq split⟩
  · refine ⟨⟨token, ⟨offset, offset + 1⟩⟩ :: lexemes, by simp, ?_⟩
    exact .token spelled (fun run isWord => absurd isWord (notWord run)) leads
  · rcases leads with ⟨raw, rest, stop, others, rfl, stopEq, body, split, rfl⟩
    have stopEq : stop = offset + ('"' :: (raw ++ ['"'])).length := by
      simp only [List.length_cons, List.length_append, List.length_nil]
      omega
    refine ⟨_, rfl, ?_⟩
    simpa using Splits.token_before (.text body) (by simp) stopEq split
  · rcases leads with ⟨run, rest, stop, others, rfl, stopEq, chars, maximal, split, rfl⟩
    have spelled : (Token.word (c :: run)).Spelled (c :: run) :=
      .word (by simp) (List.forall_mem_cons.mpr ⟨isWord, chars⟩)
    have stopEq : stop = offset + (c :: run).length := by
      rw [List.length_cons]
      omega
    exact ⟨_, rfl, .token_before spelled (fun _ _ => maximal) stopEq split⟩
  · exact False.elim leads

/-- A scan that goes on well after a character was on a good way before it. -/
theorem Scanner.leads_of_step {scanner : Scanner} {c : Char} {text : List Char}
    {lexemes : List Lexeme}
    (leads : (scanner.step c).mode.Leads (scanner.offset + 1) text lexemes) :
    ∃ more, (scanner.step c).found.reverse ++ lexemes = scanner.found.reverse ++ more ∧
      scanner.mode.Leads scanner.offset (c :: text) more := by
  rcases scanner with ⟨mode, offset, found⟩
  cases mode with
  | gap => exact Splits.of_stepGap leads
  | comment =>
      simp only [step] at leads ⊢
      split_ifs at leads ⊢ with isEnd
      · refine ⟨lexemes, rfl, [], c :: text, offset, rfl, rfl, by simp, ?_, .blank ?_ leads⟩
        · simpa [endsLine] using isEnd
        · simp only [Bool.or_eq_true, decide_eq_true_eq] at isEnd
          rcases isEnd with rfl | rfl <;> rfl
      · rcases leads with ⟨body, rest, stop, rfl, stopEq, inLine, ended, split⟩
        refine ⟨lexemes, rfl, c :: body, rest, stop, rfl, ?_, ?_, ended, split⟩
        · rw [List.length_cons]
          omega
        · exact List.forall_mem_cons.mpr ⟨by simpa [endsLine] using isEnd, inLine⟩
  | word start seen =>
      simp only [step] at leads ⊢
      split_ifs at leads ⊢ with isWord
      · rcases leads with ⟨run, rest, stop, others, rfl, stopEq, chars, maximal, split, rfl⟩
        refine ⟨_, rfl, c :: run, rest, stop, others, rfl, ?_, ?_, maximal, split, by simp⟩
        · rw [List.length_cons]
          omega
        · exact List.forall_mem_cons.mpr ⟨isWord, chars⟩
      · rcases Splits.of_stepGap leads with ⟨more, moreEq, split⟩
        refine ⟨wordLexeme start seen offset :: more, by simp [moreEq], ?_⟩
        exact ⟨[], c :: text, offset, more, rfl, rfl, by simp, by simpa using isWord, split,
          by simp [wordLexeme]⟩
  | text start seen =>
      simp only [step] at leads ⊢
      split_ifs at leads ⊢ with isEnd isEscape
      · refine ⟨⟨.text seen.reverse, ⟨start, offset + 1⟩⟩ :: lexemes, by simp, ?_⟩
        exact ⟨[], text, offset + 1, lexemes, by simp [isEnd], rfl, .nil, leads, by simp⟩
      · rcases leads with ⟨next, raw, rest, stop, others, rfl, stopEq, body, split, rfl⟩
        subst isEscape
        refine ⟨_, rfl, '\\' :: next :: raw, rest, stop, others, rfl, ?_, .escape body, split,
          by simp⟩
        simp only [List.length_cons]
        omega
      · rcases leads with ⟨raw, rest, stop, others, rfl, stopEq, body, split, rfl⟩
        refine ⟨_, rfl, c :: raw, rest, stop, others, rfl, ?_, .plain isEnd isEscape body, split,
          by simp⟩
        rw [List.length_cons]
        omega
  | escape start seen =>
      rcases leads with ⟨raw, rest, stop, others, rfl, stopEq, body, split, rfl⟩
      refine ⟨_, rfl, c, raw, rest, stop, others, rfl, ?_, body, split, by simp⟩
      omega
  | stuck place => exact False.elim leads

/-- A scan that comes to the end of the text has found tokens that the rest of the text is made
of. -/
theorem Scanner.leads_of_finish {scanner : Scanner} {text : List Char} {stop : Nat}
    (complete : (scanner.advance text).finish.ending = .complete stop) :
    ∃ lexemes, (scanner.advance text).finish.lexemes = scanner.found.reverse ++ lexemes ∧
      scanner.mode.Leads scanner.offset text lexemes := by
  induction text generalizing scanner with
  | nil =>
      rcases scanner with ⟨mode, offset, found⟩
      cases mode with
      | gap => exact ⟨[], by simp [advance, finish], .done⟩
      | comment =>
          exact ⟨[], by simp [advance, finish], [], [], offset, rfl, rfl, by simp, by simp, .done⟩
      | word start seen =>
          refine ⟨[wordLexeme start seen offset], by simp [advance, finish], ?_⟩
          exact ⟨[], [], offset, [], rfl, rfl, by simp, by simp, .done, by simp [wordLexeme]⟩
      | text start seen => simp [advance, finish] at complete
      | escape start seen => simp [advance, finish] at complete
      | stuck place => simp [advance, finish] at complete
  | cons c text ih =>
      have goesOn : scanner.advance (c :: text) = (scanner.step c).advance text := rfl
      rw [goesOn] at complete ⊢
      rcases ih complete with ⟨lexemes, lexemesEq, leads⟩
      rw [offset_step] at leads
      rcases leads_of_step leads with ⟨more, moreEq, leads⟩
      exact ⟨more, lexemesEq.trans moreEq, leads⟩

/-- A split is what the scanner finds. -/
theorem Splits.ofText_eq {source : List Char} {lexemes : List Lexeme}
    (split : Splits 0 source lexemes) :
    Scan.ofText source = ⟨lexemes, .complete source.length⟩ := by
  have found := split.finish_advance []
  rw [Nat.zero_add] at found
  exact found

/-- What the scanner finds when it comes to the end of the text is a split. -/
theorem Splits.of_complete {source : List Char} {stop : Nat}
    (complete : (Scan.ofText source).ending = .complete stop) :
    Splits 0 source (Scan.ofText source).lexemes := by
  rcases Scanner.leads_of_finish complete with ⟨lexemes, found, split⟩
  have same : (Scan.ofText source).lexemes = lexemes := found
  rw [same]
  exact split

end ExactLisp
