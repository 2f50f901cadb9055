import ExactLisp.Proofs.Words

/-!
# Parsing expressions

A grammar in which choices are ordered and what was matched is never given back. Its rules are
patterns, and a pattern applied to a text either takes a beginning of it or refuses it. Between the
parts of a sequence or a repetition a gap may be skipped; a rule can forbid this for all that it is
made of. What the rules took is told by a tree.

`Matches` says what a pattern does with a text, and it does at most one thing
(`Matches.unique`). Where no gaps are skipped and no nodes are left, `Takes` and `Refuses` say it
without places and trees, and `Within` compares a pattern with the language of the texts it takes:
the choice of that language is unordered, so a text may be taken in part where the language has it
whole.
-/

namespace ExactLisp

namespace Peg

variable {Name : Type}

/-- Parsing expressions over the names of rules. -/
inductive Pattern (Name : Type) where
  /-- Any one character. -/
  | any
  /-- One character between two, both included. -/
  | range (first last : Char)
  /-- These characters. -/
  | literal (text : String)
  /-- Nothing, at the start of the input. -/
  | start
  /-- Nothing, at the end of the input. -/
  | finish
  /-- Nothing. -/
  | empty
  /-- What is skipped between two parts. -/
  | gap
  /-- One pattern behind the other, with nothing skipped. -/
  | seq (first second : Pattern Name)
  /-- The first pattern, or the second one where the first refuses. -/
  | choice (first second : Pattern Name)
  /-- A pattern as often as it can be matched, with nothing skipped. -/
  | repeated (part : Pattern Name)
  /-- Nothing, where a pattern refuses. -/
  | notAhead (part : Pattern Name)
  /-- What a rule says. -/
  | rule (name : Name)
  deriving DecidableEq, Repr

namespace Pattern

/-- Two parts with a gap between them. -/
instance : Mul (Pattern Name) := ⟨fun first second => .seq first (.seq .gap second)⟩

/-- An ordered choice. -/
instance : OrElse (Pattern Name) := ⟨fun first second => .choice first (second ())⟩

/-- A part that may be missing. -/
def optional (part : Pattern Name) : Pattern Name :=
  part <|> .empty

/-- Any number of parts, with gaps between them. -/
def many (part : Pattern Name) : Pattern Name :=
  optional (.seq part (.repeated (.seq .gap part)))

/-- One part or more, with gaps between them. -/
def oneOrMore (part : Pattern Name) : Pattern Name :=
  part * part.many

end Pattern

/-- How a rule treats what it is made of. -/
inductive Kind where
  /-- The rule leaves a node. -/
  | normal
  /-- The rule leaves no node of its own. -/
  | silent
  /-- The rule leaves a node, all below it leaves none, and no gaps are skipped. -/
  | atomic
  /-- The rule leaves a node, and no gaps are skipped. -/
  | compound
  deriving DecidableEq, Repr

/-- A rule of a grammar. -/
structure Definition (Name : Type) where
  kind : Kind
  body : Pattern Name
  deriving DecidableEq, Repr

/-- The rules of a grammar, and the names of the two that gaps are made of. -/
structure Grammar (Name : Type) where
  definition : Name → Definition Name
  blank : Name
  comment : Name

/-- A gap: blanks, and comments with blanks behind them. -/
def Grammar.gap (grammar : Grammar Name) : Pattern Name :=
  .seq (.repeated (.rule grammar.blank))
    (.repeated (.seq (.rule grammar.comment) (.repeated (.rule grammar.blank))))

/-- What the rules around a pattern ask for. -/
inductive Mode where
  /-- Gaps are skipped. -/
  | free
  /-- No gaps are skipped. -/
  | compound
  /-- No gaps are skipped, and no nodes are left. -/
  | atomic
  deriving DecidableEq, Repr

/-- What is asked for inside a rule. -/
def Mode.inside (mode : Mode) : Kind → Mode
  | .normal | .silent => mode
  | .atomic => .atomic
  | .compound => .compound

/-- Whether a rule leaves a node. -/
def Mode.leavesNode (mode : Mode) : Kind → Bool
  | .silent => false
  | .compound => true
  | .normal | .atomic => mode != .atomic

/-- What a rule took: its name, the stretch of the text, and what the rules below it took. -/
inductive Tree (Name : Type) where
  | node (name : Name) (extent : Extent) (children : List (Tree Name))

/-- Where a match ends, the text behind it, and the trees that it left. -/
structure Match (Name : Type) where
  stop : Nat
  rest : List Char
  trees : List (Tree Name)

/-- The trees that a rule leaves if its body left `trees`. -/
def Mode.leave (mode : Mode) (kind : Kind) (name : Name) (extent : Extent)
    (trees : List (Tree Name)) : List (Tree Name) :=
  if mode.leavesNode kind then [.node name extent trees] else trees

/-- What a pattern does with a text that starts at `offset`: it takes the beginning of the text, or
it refuses the text. -/
inductive Matches (grammar : Grammar Name) :
    Mode → Pattern Name → Nat → List Char → Option (Match Name) → Prop where
  | any {mode : Mode} {offset : Nat} {c : Char} {rest : List Char} :
      Matches grammar mode .any offset (c :: rest) (some ⟨offset + 1, rest, []⟩)
  | any_refuses {mode : Mode} {offset : Nat} : Matches grammar mode .any offset [] none
  | range {mode : Mode} {first last c : Char} {offset : Nat} {rest : List Char}
      (inside : first ≤ c ∧ c ≤ last) :
      Matches grammar mode (.range first last) offset (c :: rest) (some ⟨offset + 1, rest, []⟩)
  | range_refuses {mode : Mode} {first last : Char} {offset : Nat} {text : List Char}
      (outside : ∀ c ∈ text.head?, ¬(first ≤ c ∧ c ≤ last)) :
      Matches grammar mode (.range first last) offset text none
  | literal {mode : Mode} {name : String} {offset : Nat} {rest : List Char} :
      Matches grammar mode (.literal name) offset (name.toList ++ rest)
        (some ⟨offset + name.toList.length, rest, []⟩)
  | literal_refuses {mode : Mode} {name : String} {offset : Nat} {text : List Char}
      (differs : ¬name.toList <+: text) : Matches grammar mode (.literal name) offset text none
  | start {mode : Mode} {text : List Char} :
      Matches grammar mode .start 0 text (some ⟨0, text, []⟩)
  | start_refuses {mode : Mode} {offset : Nat} {text : List Char} (behind : offset ≠ 0) :
      Matches grammar mode .start offset text none
  | finish {mode : Mode} {offset : Nat} :
      Matches grammar mode .finish offset [] (some ⟨offset, [], []⟩)
  | finish_refuses {mode : Mode} {offset : Nat} {text : List Char} (goesOn : text ≠ []) :
      Matches grammar mode .finish offset text none
  | empty {mode : Mode} {offset : Nat} {text : List Char} :
      Matches grammar mode .empty offset text (some ⟨offset, text, []⟩)
  | gap {offset : Nat} {text : List Char} {outcome : Option (Match Name)}
      (skipped : Matches grammar .compound grammar.gap offset text outcome) :
      Matches grammar .free .gap offset text outcome
  | gap_held {mode : Mode} {offset : Nat} {text : List Char} (held : mode ≠ .free) :
      Matches grammar mode .gap offset text (some ⟨offset, text, []⟩)
  | seq {mode : Mode} {first second : Pattern Name} {offset middle stop : Nat}
      {text between rest : List Char} {trees more : List (Tree Name)}
      (takesFirst : Matches grammar mode first offset text (some ⟨middle, between, trees⟩))
      (takesSecond : Matches grammar mode second middle between (some ⟨stop, rest, more⟩)) :
      Matches grammar mode (.seq first second) offset text (some ⟨stop, rest, trees ++ more⟩)
  | seq_refuses_first {mode : Mode} {first second : Pattern Name} {offset : Nat} {text : List Char}
      (refuses : Matches grammar mode first offset text none) :
      Matches grammar mode (.seq first second) offset text none
  | seq_refuses_second {mode : Mode} {first second : Pattern Name} {offset middle : Nat}
      {text between : List Char} {trees : List (Tree Name)}
      (takesFirst : Matches grammar mode first offset text (some ⟨middle, between, trees⟩))
      (refuses : Matches grammar mode second middle between none) :
      Matches grammar mode (.seq first second) offset text none
  | choice_first {mode : Mode} {first second : Pattern Name} {offset : Nat} {text : List Char}
      {taken : Match Name} (takes : Matches grammar mode first offset text (some taken)) :
      Matches grammar mode (.choice first second) offset text (some taken)
  | choice_second {mode : Mode} {first second : Pattern Name} {offset : Nat} {text : List Char}
      {outcome : Option (Match Name)} (refuses : Matches grammar mode first offset text none)
      (otherwise : Matches grammar mode second offset text outcome) :
      Matches grammar mode (.choice first second) offset text outcome
  | repeated_done {mode : Mode} {part : Pattern Name} {offset : Nat} {text : List Char}
      (refuses : Matches grammar mode part offset text none) :
      Matches grammar mode (.repeated part) offset text (some ⟨offset, text, []⟩)
  | repeated_more {mode : Mode} {part : Pattern Name} {offset middle stop : Nat}
      {text between rest : List Char} {trees more : List (Tree Name)}
      (takes : Matches grammar mode part offset text (some ⟨middle, between, trees⟩))
      (others : Matches grammar mode (.repeated part) middle between (some ⟨stop, rest, more⟩)) :
      Matches grammar mode (.repeated part) offset text (some ⟨stop, rest, trees ++ more⟩)
  | notAhead {mode : Mode} {part : Pattern Name} {offset : Nat} {text : List Char}
      (refuses : Matches grammar mode part offset text none) :
      Matches grammar mode (.notAhead part) offset text (some ⟨offset, text, []⟩)
  | notAhead_refuses {mode : Mode} {part : Pattern Name} {offset : Nat} {text : List Char}
      {taken : Match Name} (takes : Matches grammar mode part offset text (some taken)) :
      Matches grammar mode (.notAhead part) offset text none
  | rule {mode : Mode} {name : Name} {offset stop : Nat} {text rest : List Char}
      {trees : List (Tree Name)}
      (body : Matches grammar (mode.inside (grammar.definition name).kind)
        (grammar.definition name).body offset text (some ⟨stop, rest, trees⟩)) :
      Matches grammar mode (.rule name) offset text
        (some ⟨stop, rest, mode.leave (grammar.definition name).kind name ⟨offset, stop⟩ trees⟩)
  | rule_refuses {mode : Mode} {name : Name} {offset : Nat} {text : List Char}
      (body : Matches grammar (mode.inside (grammar.definition name).kind)
        (grammar.definition name).body offset text none) :
      Matches grammar mode (.rule name) offset text none

/-- A pattern does one thing at most with a text. -/
theorem Matches.unique {grammar : Grammar Name} {mode : Mode} {pattern : Pattern Name}
    {offset : Nat} {text : List Char} {outcome other : Option (Match Name)}
    (matched : Matches grammar mode pattern offset text outcome)
    (again : Matches grammar mode pattern offset text other) : outcome = other := by
  induction matched generalizing other with
  | any | any_refuses | empty =>
      cases again
      rfl
  | range inside =>
      cases again with
      | range _ => rfl
      | range_refuses outside => exact absurd inside (outside _ rfl)
  | range_refuses outside =>
      cases again with
      | range inside => exact absurd inside (outside _ rfl)
      | range_refuses _ => rfl
  | @literal mode name offset rest =>
      generalize isText : name.toList ++ rest = text at again
      cases again with
      | literal =>
          cases List.append_cancel_left isText
          rfl
      | literal_refuses differs => exact absurd ⟨rest, isText⟩ differs
  | literal_refuses differs =>
      cases again with
      | literal => exact absurd (List.prefix_append _ _) differs
      | literal_refuses _ => rfl
  | start =>
      cases again with
      | start => rfl
      | start_refuses behind => exact absurd rfl behind
  | start_refuses behind =>
      cases again with
      | start => exact absurd rfl behind
      | start_refuses _ => rfl
  | finish =>
      cases again with
      | finish => rfl
      | finish_refuses goesOn => exact absurd rfl goesOn
  | finish_refuses goesOn =>
      cases again with
      | finish => exact absurd rfl goesOn
      | finish_refuses _ => rfl
  | gap _ ih =>
      cases again with
      | gap skipped => exact ih skipped
      | gap_held held => exact absurd rfl held
  | gap_held held =>
      cases again with
      | gap _ => exact absurd rfl held
      | gap_held _ => rfl
  | seq _ _ ihFirst ihSecond =>
      cases again with
      | seq takesFirst takesSecond =>
          cases ihFirst takesFirst
          cases ihSecond takesSecond
          rfl
      | seq_refuses_first refuses => cases ihFirst refuses
      | seq_refuses_second takesFirst refuses =>
          cases ihFirst takesFirst
          cases ihSecond refuses
  | seq_refuses_first _ ih =>
      cases again with
      | seq takesFirst _ => cases ih takesFirst
      | seq_refuses_first _ => rfl
      | seq_refuses_second takesFirst _ => cases ih takesFirst
  | seq_refuses_second _ _ ihFirst ihSecond =>
      cases again with
      | seq takesFirst takesSecond =>
          cases ihFirst takesFirst
          cases ihSecond takesSecond
      | seq_refuses_first _ => rfl
      | seq_refuses_second _ _ => rfl
  | choice_first _ ih =>
      cases again with
      | choice_first takes => exact ih takes
      | choice_second refuses _ => cases ih refuses
  | choice_second _ _ ihFirst ihSecond =>
      cases again with
      | choice_first takes => cases ihFirst takes
      | choice_second _ otherwise => exact ihSecond otherwise
  | repeated_done _ ih =>
      cases again with
      | repeated_done _ => rfl
      | repeated_more takes _ => cases ih takes
  | repeated_more _ _ ihFirst ihOthers =>
      cases again with
      | repeated_done refuses => cases ihFirst refuses
      | repeated_more takes others =>
          cases ihFirst takes
          cases ihOthers others
          rfl
  | notAhead _ ih =>
      cases again with
      | notAhead _ => rfl
      | notAhead_refuses takes => cases ih takes
  | notAhead_refuses _ ih =>
      cases again with
      | notAhead refuses => cases ih refuses
      | notAhead_refuses _ => rfl
  | rule _ ih =>
      cases again with
      | rule body =>
          cases ih body
          rfl
      | rule_refuses body => cases ih body
  | rule_refuses _ ih =>
      cases again with
      | rule body => cases ih body
      | rule_refuses _ => rfl

/-- A match ends where what it took ends. -/
theorem Matches.length_eq {grammar : Grammar Name} {mode : Mode} {pattern : Pattern Name}
    {offset : Nat} {text : List Char} {outcome : Option (Match Name)}
    (matched : Matches grammar mode pattern offset text outcome) :
    ∀ taken ∈ outcome, taken.stop + taken.rest.length = offset + text.length := by
  induction matched with
  | any | range _ | literal =>
      rintro _ ⟨⟩
      simp only [List.length_cons, List.length_append]
      omega
  | start | finish | empty | gap_held _ | repeated_done _ _ | notAhead _ _ =>
      rintro _ ⟨⟩
      rfl
  | gap _ ih | choice_first _ ih | choice_second _ _ _ ih => exact ih
  | seq _ _ ihFirst ihSecond =>
      rintro _ ⟨⟩
      exact (ihSecond _ rfl).trans (ihFirst _ rfl)
  | repeated_more _ _ ihFirst ihOthers =>
      rintro _ ⟨⟩
      exact (ihOthers _ rfl).trans (ihFirst _ rfl)
  | @rule _ _ _ stop _ rest trees _ ih =>
      rintro _ ⟨⟩
      exact ih ⟨stop, rest, trees⟩ rfl
  | _ => simp

/-! ### Patterns that leave nothing -/

/-- A pattern takes the first of two texts, wherever they start, and leaves no trees. -/
def Takes (grammar : Grammar Name) (mode : Mode) (pattern : Pattern Name)
    (taken rest : List Char) : Prop :=
  ∀ offset, Matches grammar mode pattern offset (taken ++ rest)
    (some ⟨offset + taken.length, rest, []⟩)

/-- A pattern refuses a text, wherever it starts. -/
def Refuses (grammar : Grammar Name) (mode : Mode) (pattern : Pattern Name)
    (text : List Char) : Prop :=
  ∀ offset, Matches grammar mode pattern offset text none

section Held

variable {grammar : Grammar Name} {mode : Mode} {part first second : Pattern Name}
  {taken others rest text : List Char} {name : Name}

theorem Takes.empty : Takes grammar mode .empty [] rest :=
  fun _ => .empty

theorem Takes.literal (spelling : String) :
    Takes grammar mode (.literal spelling) spelling.toList rest :=
  fun _ => .literal

theorem Takes.seq (takesFirst : Takes grammar mode first taken (others ++ rest))
    (takesSecond : Takes grammar mode second others rest) :
    Takes grammar mode (.seq first second) (taken ++ others) rest := by
  intro offset
  rw [List.append_assoc, List.length_append, ← Nat.add_assoc]
  exact .seq (takesFirst offset) (takesSecond _)

theorem Takes.gap (held : mode ≠ .free) : Takes grammar mode .gap [] rest :=
  fun _ => .gap_held held

theorem Takes.mul (held : mode ≠ .free)
    (takesFirst : Takes grammar mode first taken (others ++ rest))
    (takesSecond : Takes grammar mode second others rest) :
    Takes grammar mode (first * second) (taken ++ others) rest :=
  .seq takesFirst (.seq (.gap held) takesSecond)

theorem Refuses.mul_first (refuses : Refuses grammar mode first text) :
    Refuses grammar mode (first * second) text :=
  fun offset => .seq_refuses_first (refuses offset)

theorem Refuses.mul_second (held : mode ≠ .free)
    (takes : Takes grammar mode first taken rest) (refuses : Refuses grammar mode second rest) :
    Refuses grammar mode (first * second) (taken ++ rest) := by
  intro offset
  refine .seq_refuses_second (takes offset) ?_
  exact .seq_refuses_second (.gap_held held) (refuses _)

theorem Takes.orElse_first (takes : Takes grammar mode first taken rest) :
    Takes grammar mode (first <|> second) taken rest :=
  fun offset => .choice_first (takes offset)

theorem Takes.orElse_second (refuses : Refuses grammar mode first (taken ++ rest))
    (takes : Takes grammar mode second taken rest) :
    Takes grammar mode (first <|> second) taken rest :=
  fun offset => .choice_second (refuses offset) (takes offset)

theorem Refuses.orElse (refusesFirst : Refuses grammar mode first text)
    (refusesSecond : Refuses grammar mode second text) :
    Refuses grammar mode (first <|> second) text :=
  fun offset => .choice_second (refusesFirst offset) (refusesSecond offset)

theorem Takes.optional (takes : Takes grammar mode part taken rest) :
    Takes grammar mode part.optional taken rest :=
  .orElse_first takes

theorem Takes.optional_nil (refuses : Refuses grammar mode part rest) :
    Takes grammar mode part.optional [] rest :=
  .orElse_second refuses .empty

theorem Takes.notAhead (refuses : Refuses grammar mode part rest) :
    Takes grammar mode (.notAhead part) [] rest :=
  fun offset => .notAhead (refuses offset)

theorem Refuses.notAhead (takes : Takes grammar mode part taken rest) :
    Refuses grammar mode (.notAhead part) (taken ++ rest) :=
  fun offset => .notAhead_refuses (takes offset)

theorem Takes.repeated (takes : Takes grammar mode part taken (others ++ rest))
    (more : Takes grammar mode (.repeated part) others rest) :
    Takes grammar mode (.repeated part) (taken ++ others) rest := by
  intro offset
  rw [List.append_assoc, List.length_append, ← Nat.add_assoc]
  exact .repeated_more (takes offset) (more _)

theorem Takes.repeated_nil (refuses : Refuses grammar mode part rest) :
    Takes grammar mode (.repeated part) [] rest :=
  fun offset => .repeated_done (refuses offset)

/-- Where no node is left, a rule takes what its body takes. -/
theorem Takes.rule (noNode : mode.leavesNode (grammar.definition name).kind = false)
    (body : Takes grammar (mode.inside (grammar.definition name).kind)
      (grammar.definition name).body taken rest) :
    Takes grammar mode (.rule name) taken rest := by
  intro offset
  have taken := Matches.rule (body offset)
  rwa [Mode.leave, noNode, if_neg Bool.false_ne_true] at taken

theorem Refuses.rule (body : Refuses grammar (mode.inside (grammar.definition name).kind)
      (grammar.definition name).body text) : Refuses grammar mode (.rule name) text :=
  fun offset => .rule_refuses (body offset)

/-! ### Classes of characters -/

/-- A pattern takes one character of a kind, and refuses everything else. -/
structure IsClass (grammar : Grammar Name) (mode : Mode) (part : Pattern Name)
    (isKind : Char → Bool) : Prop where
  takes : ∀ c rest, isKind c → Takes grammar mode part [c] rest
  refuses : ∀ text : List Char, (∀ c ∈ text.head?, isKind c = false) →
    Refuses grammar mode part text

theorem isClass_any : IsClass grammar mode .any fun _ => true where
  takes := fun _ _ _ _ => .any
  refuses := by
    intro text noneThere offset
    cases text with
    | nil => exact .any_refuses
    | cons c rest => exact absurd (noneThere c rfl) (by simp)

theorem isClass_range (low high : Char) :
    IsClass grammar mode (.range low high) fun c => decide (low ≤ c) && decide (c ≤ high) where
  takes := by
    intro c rest inside offset
    exact .range (by simpa using inside)
  refuses := by
    intro text outside offset
    refine .range_refuses fun c isHead => ?_
    simpa using outside c isHead

/-- A text is refused where another one begins in a different way. -/
theorem Refuses.literal {spelling : String} (c : Char) {others text : List Char}
    (begins : spelling.toList = c :: others) (differs : ∀ other ∈ text.head?, other ≠ c) :
    Refuses grammar mode (.literal spelling) text := by
  refine fun offset => .literal_refuses ?_
  rw [begins]
  rintro ⟨rest, rfl⟩
  exact differs c rfl rfl

theorem isClass_literal {spelling : String} (one : spelling.toList.length = 1) :
    IsClass grammar mode (.literal spelling) (spelling.toList.contains ·) := by
  rcases List.length_eq_one_iff.mp one with ⟨c, isSpelling⟩
  constructor
  · intro other rest same
    rw [isSpelling, List.contains_iff_mem, List.mem_singleton] at same
    rw [same, ← isSpelling]
    exact .literal spelling
  · intro text differs
    refine .literal c isSpelling ?_
    rintro other isHead rfl
    simpa [isSpelling] using differs other isHead

variable {isKind isOther : Char → Bool}

theorem IsClass.orElse (isFirst : IsClass grammar mode first isKind)
    (isSecond : IsClass grammar mode second isOther) :
    IsClass grammar mode (first <|> second) fun c => isKind c || isOther c where
  takes := by
    intro c rest isEither
    by_cases isOne : isKind c
    · exact .orElse_first (isFirst.takes c rest isOne)
    · refine .orElse_second (isFirst.refuses _ ?_) (isSecond.takes c rest ?_)
      · simpa using isOne
      · simpa [isOne] using isEither
  refuses := by
    intro text neither
    simp only [Bool.or_eq_false_iff] at neither
    exact .orElse (isFirst.refuses text fun c isHead => (neither c isHead).1)
      (isSecond.refuses text fun c isHead => (neither c isHead).2)

theorem IsClass.rule (noNode : mode.leavesNode (grammar.definition name).kind = false)
    (isClass : IsClass grammar (mode.inside (grammar.definition name).kind)
      (grammar.definition name).body isKind) : IsClass grammar mode (.rule name) isKind where
  takes := fun c rest isOne => .rule noNode (isClass.takes c rest isOne)
  refuses := fun text noneThere => .rule (isClass.refuses text noneThere)

theorem IsClass.congr (isClass : IsClass grammar mode part isKind)
    (same : ∀ c, isKind c = isOther c) : IsClass grammar mode part isOther := by
  rwa [← funext same]

/-- One character of a kind that is not of another kind. -/
theorem IsClass.except (held : mode ≠ .free) (isOther : Char → Bool)
    (isClass : IsClass grammar mode part isKind)
    (takesOther : ∀ c rest, isOther c → ∃ taken more, c :: rest = taken ++ more ∧
      Takes grammar mode first taken more)
    (refusesOther : ∀ text : List Char, (∀ c ∈ text.head?, isOther c = false) →
      Refuses grammar mode first text) :
    IsClass grammar mode (.notAhead first * part) fun c => !isOther c && isKind c where
  takes := by
    intro c rest isOne
    rw [Bool.and_eq_true, Bool.not_eq_true'] at isOne
    have notOther : Takes grammar mode (.notAhead first) [] ([c] ++ rest) :=
      .notAhead (refusesOther _ (by simpa using isOne.1))
    exact .mul held notOther (isClass.takes c rest isOne.2)
  refuses := by
    intro text neither
    cases text with
    | nil =>
        have notOther : Takes grammar mode (.notAhead first) [] [] :=
          .notAhead (refusesOther _ (by simp))
        exact .mul_second held notOther (isClass.refuses _ (by simp))
    | cons c rest =>
        by_cases isEither : isOther c
        · rcases takesOther c rest isEither with ⟨taken, more, isText, takes⟩
          rw [isText]
          exact .mul_first (.notAhead takes)
        · have notOther : Takes grammar mode (.notAhead first) [] (c :: rest) :=
            .notAhead (refusesOther _ (by simpa using isEither))
          refine .mul_second held notOther (isClass.refuses _ ?_)
          simpa [isEither] using neither c rfl

theorem IsClass.repeated (isClass : IsClass grammar mode part isKind)
    (run : ∀ c ∈ taken, isKind c) (ended : ∀ c ∈ rest.head?, isKind c = false) :
    Takes grammar mode (.repeated part) taken rest := by
  induction taken with
  | nil => exact .repeated_nil (isClass.refuses rest ended)
  | cons c taken ih =>
      rw [List.forall_mem_cons] at run
      exact .repeated (isClass.takes c (taken ++ rest) run.1) (ih run.2)

theorem IsClass.afterGap (held : mode ≠ .free) (isClass : IsClass grammar mode part isKind) :
    IsClass grammar mode (.seq .gap part) isKind where
  takes := fun c rest isOne => .seq (.gap held) (isClass.takes c rest isOne)
  refuses := fun text noneThere offset =>
    .seq_refuses_second (.gap_held held) (isClass.refuses text noneThere offset)

theorem IsClass.many (held : mode ≠ .free) (isClass : IsClass grammar mode part isKind)
    (run : ∀ c ∈ taken, isKind c) (ended : ∀ c ∈ rest.head?, isKind c = false) :
    Takes grammar mode part.many taken rest := by
  cases taken with
  | nil =>
      refine .optional_nil ?_
      exact fun offset => .seq_refuses_first (isClass.refuses rest ended offset)
  | cons c taken =>
      rw [List.forall_mem_cons] at run
      refine .optional (.seq (isClass.takes c (taken ++ rest) run.1) ?_)
      exact (isClass.afterGap held).repeated run.2 ended

theorem IsClass.oneOrMore (held : mode ≠ .free) (isClass : IsClass grammar mode part isKind)
    (nonempty : taken ≠ []) (run : ∀ c ∈ taken, isKind c)
    (ended : ∀ c ∈ rest.head?, isKind c = false) :
    Takes grammar mode part.oneOrMore taken rest := by
  rcases List.exists_cons_of_ne_nil nonempty with ⟨c, others, rfl⟩
  rw [List.forall_mem_cons] at run
  exact .mul held (isClass.takes c (others ++ rest) run.1) (isClass.many held run.2 ended)

/-! ### Languages -/

/-- Whatever text a pattern is applied to, what it takes lies in a language. -/
def Within (grammar : Grammar Name) (mode : Mode) (pattern : Pattern Name)
    (language : Language Char) : Prop :=
  ∀ text, Refuses grammar mode pattern text ∨
    ∃ taken ∈ language, ∃ rest, text = taken ++ rest ∧ Takes grammar mode pattern taken rest

variable {language firstLanguage secondLanguage : Language Char}

theorem Within.mono (within : Within grammar mode part firstLanguage)
    (included : ∀ run ∈ firstLanguage, run ∈ secondLanguage) :
    Within grammar mode part secondLanguage := by
  intro text
  rcases within text with refuses | ⟨taken, inFirst, others⟩
  · exact Or.inl refuses
  · exact Or.inr ⟨taken, included taken inFirst, others⟩

theorem Within.literal (spelling : String) :
    Within grammar mode (.literal spelling) {spelling.toList} := by
  intro text
  by_cases isPrefix : spelling.toList <+: text
  · rcases isPrefix with ⟨rest, rfl⟩
    exact Or.inr ⟨spelling.toList, rfl, rest, rfl, .literal spelling⟩
  · exact Or.inl fun _ => .literal_refuses isPrefix

theorem Within.mul (held : mode ≠ .free) (isFirst : Within grammar mode first firstLanguage)
    (isSecond : Within grammar mode second secondLanguage) :
    Within grammar mode (first * second) (firstLanguage * secondLanguage) := by
  intro text
  rcases isFirst text with refuses | ⟨taken, inFirst, between, rfl, takesFirst⟩
  · exact Or.inl (.mul_first refuses)
  rcases isSecond between with refuses | ⟨others, inSecond, rest, rfl, takesSecond⟩
  · exact Or.inl (.mul_second held takesFirst refuses)
  · exact Or.inr ⟨taken ++ others, Language.append_mem_mul inFirst inSecond, rest, by simp,
      .mul held takesFirst takesSecond⟩

theorem Within.orElse (isFirst : Within grammar mode first firstLanguage)
    (isSecond : Within grammar mode second secondLanguage) :
    Within grammar mode (first <|> second) (firstLanguage + secondLanguage) := by
  intro text
  rcases isFirst text with refusesFirst | ⟨taken, inFirst, rest, rfl, takes⟩
  · rcases isSecond text with refusesSecond | ⟨taken, inSecond, rest, rfl, takes⟩
    · exact Or.inl (.orElse refusesFirst refusesSecond)
    · exact Or.inr ⟨taken, Or.inr inSecond, rest, rfl, .orElse_second refusesFirst takes⟩
  · exact Or.inr ⟨taken, Or.inl inFirst, rest, rfl, .orElse_first takes⟩

theorem Within.optional (isPart : Within grammar mode part language) :
    Within grammar mode part.optional (1 + language) := by
  intro text
  rcases isPart text with refuses | ⟨taken, inLanguage, rest, rfl, takes⟩
  · exact Or.inr ⟨[], Or.inl rfl, text, rfl, .optional_nil refuses⟩
  · exact Or.inr ⟨taken, Or.inr inLanguage, rest, rfl, .optional takes⟩

theorem Within.rule (noNode : mode.leavesNode (grammar.definition name).kind = false)
    (body : Within grammar (mode.inside (grammar.definition name).kind)
      (grammar.definition name).body language) : Within grammar mode (.rule name) language := by
  intro text
  rcases body text with refuses | ⟨taken, inLanguage, rest, rfl, takes⟩
  · exact Or.inl (.rule refuses)
  · exact Or.inr ⟨taken, inLanguage, rest, rfl, .rule noNode takes⟩

theorem IsClass.within (isClass : IsClass grammar mode part isKind) :
    Within grammar mode part {run | ∃ c, isKind c ∧ run = [c]} := by
  intro text
  by_cases isOne : ∃ c ∈ text.head?, isKind c
  · rcases isOne with ⟨c, isHead, isOne⟩
    rcases List.head?_eq_some_iff.mp isHead with ⟨rest, rfl⟩
    exact Or.inr ⟨[c], ⟨c, isOne, rfl⟩, rest, rfl, isClass.takes c rest isOne⟩
  · refine Or.inl (isClass.refuses text fun c isHead => ?_)
    rw [← Bool.not_eq_true]
    exact fun isKind => isOne ⟨c, isHead, isKind⟩

theorem IsClass.within_many (held : mode ≠ .free) (isClass : IsClass grammar mode part isKind) :
    Within grammar mode part.many {run | ∀ c ∈ run, isKind c} := by
  intro text
  rcases exists_run_append isKind text with ⟨run, rest, rfl, areKind, ended⟩
  exact Or.inr ⟨run, areKind, rest, rfl, isClass.many held areKind ended⟩

theorem IsClass.within_oneOrMore (held : mode ≠ .free)
    (isClass : IsClass grammar mode part isKind) :
    Within grammar mode part.oneOrMore {run | run ≠ [] ∧ ∀ c ∈ run, isKind c} := by
  intro text
  rcases exists_run_append isKind text with ⟨run, rest, rfl, areKind, ended⟩
  by_cases nonempty : run = []
  · subst nonempty
    exact Or.inl (.mul_first (isClass.refuses _ ended))
  · exact Or.inr ⟨run, ⟨nonempty, areKind⟩, rest, rfl,
      isClass.oneOrMore held nonempty areKind ended⟩

end Held

end Peg

end ExactLisp
