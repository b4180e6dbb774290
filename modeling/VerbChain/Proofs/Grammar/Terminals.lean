import VerbChain.Proofs.Chain.RoundTrip
import VerbChain.Proofs.Grammar.Derivation
import VerbChain.Proofs.Source.LongestMatch

namespace VerbChain

/-!
# The texts of terminals are lexemes

Every text that a terminal of the standard grammar stands for is a lexeme, and
texts that are spread over a program are its lexemes one by one: between two of
them stands punctuation or white space, and neither goes on with a word or a
number.
-/

namespace Grammar

namespace Expression

variable {α β : Type} {accepts : α → β → Prop}
  {first second body : Expression α} {items : List β}

theorem matches_atom
    {item : α} :
    (Expression.atom item).Matches accepts items ↔
      ∃ found, items = [found] ∧ accepts item found := by
  constructor
  · rintro ⟨accepted⟩
    exact ⟨_, rfl, accepted⟩
  · rintro ⟨found, rfl, accepted⟩
    exact .atom accepted

theorem matches_sequence :
    (Expression.sequence first second).Matches accepts items ↔
      ∃ left right,
        items = left ++ right ∧ first.Matches accepts left ∧
          second.Matches accepts right := by
  constructor
  · rintro ⟨⟩
    exact ⟨_, _, rfl, ‹_›, ‹_›⟩
  · rintro ⟨left, right, rfl, inFront, behind⟩
    exact .sequence inFront behind

theorem matches_either :
    (Expression.either first second).Matches accepts items ↔
      first.Matches accepts items ∨ second.Matches accepts items := by
  constructor
  · intro matched
    cases matched with
    | first chosen => exact .inl chosen
    | second chosen => exact .inr chosen
  · rintro (chosen | chosen)
    · exact .first chosen
    · exact .second chosen

theorem matches_optional :
    (Expression.optional body).Matches accepts items ↔
      items = [] ∨ body.Matches accepts items := by
  constructor
  · intro matched
    cases matched with
    | absent => exact .inl rfl
    | present given => exact .inr given
  · rintro (rfl | given)
    · exact .absent
    · exact .present given

/-- What repeats one item accepts each of its places. -/
private theorem all_of_matches_star
    {item : α}
    (matched : (Expression.star (.atom item)).Matches accepts items) :
    ∀ found ∈ items, accepts item found := by
  generalize shape : Expression.star (.atom item) = pattern at matched
  induction matched with
  | done => simp
  | again once more _ inductionHypothesis =>
      cases shape
      obtain ⟨found, rfl, accepted⟩ := matches_atom.1 once
      intro other member
      rcases List.mem_cons.1 member with rfl | later
      · exact accepted
      · exact inductionHypothesis rfl other later
  | _ => cases shape

private theorem all_of_matches_plus
    {item : α}
    (matched : (Expression.plus (.atom item)).Matches accepts items) :
    items ≠ [] ∧ ∀ found ∈ items, accepts item found := by
  cases matched with
  | plus once more =>
      obtain ⟨found, rfl, accepted⟩ := matches_atom.1 once
      refine ⟨by simp, ?_⟩
      intro other member
      rcases List.mem_cons.1 member with rfl | later
      · exact accepted
      · exact all_of_matches_star more other later

end Expression

open Expression

private theorem isLower_of_range
    {c : Char}
    (range : 'a' ≤ c ∧ c ≤ 'z') :
    c.isLower = true :=
  Bool.and_eq_true_iff.2 ⟨decide_eq_true range.1, decide_eq_true range.2⟩

private theorem isUpper_of_range
    {c : Char}
    (range : 'A' ≤ c ∧ c ≤ 'Z') :
    c.isUpper = true :=
  decide_eq_true range

private theorem isAlpha_eq (c : Char) :
    c.isAlpha = (c.isUpper || c.isLower) :=
  rfl

/-- What the grammar lets a name start with starts a word. -/
theorem startsWord_of_accepts
    {c : Char}
    (accepted :
      (CharClass.set false [('a', 'z'), ('A', 'Z'), ('_', '_')]).accepts c =
        true) :
    startsWord c = true := by
  simp [CharClass.accepts] at accepted
  rcases accepted with lower | upper | ⟨above, below⟩
  · simp [startsWord, isAlpha_eq, isLower_of_range lower]
  · simp [startsWord, isAlpha_eq, isUpper_of_range upper]
  · simp [startsWord, Char.le_antisymm below above]

/-- What the grammar lets a name go on with continues a word. -/
theorem continuesWord_of_accepts
    {c : Char}
    (accepted :
      (CharClass.set false
        [('a', 'z'), ('A', 'Z'), ('0', '9'), ('_', '_')]).accepts c = true) :
    continuesWord c = true := by
  simp [CharClass.accepts] at accepted
  rcases accepted with lower | upper | digit | ⟨above, below⟩
  · simp [continuesWord, Char.isAlphanum, isAlpha_eq, isLower_of_range lower]
  · simp [continuesWord, Char.isAlphanum, isAlpha_eq, isUpper_of_range upper]
  · have isDigit_c : isDigit c = true := by simpa [isDigit] using digit
    simp [continuesWord, Char.isAlphanum, ← isDigit_eq, isDigit_c]
  · simp [continuesWord, Char.le_antisymm below above]

theorem isLexeme_of_word
    {text : List Char}
    (matched :
      word.Matches (fun place c => place.accepts c = true) text) :
    IsLexeme text (.ofWord (String.ofList text)) := by
  obtain ⟨_, others, rfl, starts, continues⟩ := matches_sequence.1 matched
  obtain ⟨c, rfl, accepted⟩ := matches_atom.1 starts
  refine Lexeme.isLexeme_of_word (startsWord_of_accepts accepted) ?_
  intro d member
  exact continuesWord_of_accepts (all_of_matches_star continues d member)

theorem isNumeral_of_numeral
    {text : List Char}
    (matched :
      numeral.Matches (fun place c => place.accepts c = true) text) :
    ∃ negative decimal, IsNumeral text negative decimal := by
  obtain ⟨sign, _, rfl, signed, unsigned⟩ := matches_sequence.1 matched
  obtain ⟨whole, after, rfl, digits, fractional⟩ :=
    matches_sequence.1 unsigned
  obtain ⟨some, wholeDigits⟩ := all_of_matches_plus digits
  obtain ⟨negative, isSign⟩ :
      ∃ negative : Bool, sign = if negative then ['-'] else [] := by
    rcases matches_optional.1 signed with rfl | minus
    · exact ⟨false, rfl⟩
    · obtain ⟨c, rfl, accepted⟩ := matches_atom.1 minus
      rw [eq_of_beq accepted]
      exact ⟨true, rfl⟩
  obtain ⟨fraction, isFraction, fractionDigits⟩ :
      ∃ fraction,
        after = (if fraction = [] then [] else ['.']) ++ fraction ∧
          ∀ c ∈ fraction, isDigit c = true := by
    rcases matches_optional.1 fractional with rfl | given
    · exact ⟨[], rfl, by simp⟩
    · obtain ⟨_, fraction, rfl, point, more⟩ := matches_sequence.1 given
      obtain ⟨c, rfl, accepted⟩ := matches_atom.1 point
      obtain ⟨someFraction, digits⟩ := all_of_matches_plus more
      rw [eq_of_beq accepted]
      exact ⟨fraction, by simp [someFraction], digits⟩
  rw [isSign, isFraction]
  exact ⟨negative, _, .parts negative some wholeDigits fractionDigits⟩

theorem exists_isQuotedBody
    {quote : Char}
    {text : List Char}
    (matched :
      (Expression.star
        (.either (.atom (.set true [(quote, quote), ('\\', '\\')]))
          (.sequence (.atom (.only '\\')) (.atom .any)))).Matches
        (fun place c => CharClass.accepts place c = true) text) :
    ∃ content, IsQuotedBody quote text content := by
  generalize shape : Expression.star _ = pattern at matched
  induction matched with
  | done => exact ⟨[], .nil⟩
  | again once more _ inductionHypothesis =>
      cases shape
      obtain ⟨content, inside⟩ := inductionHypothesis rfl
      rcases matches_either.1 once with plain | escaped
      · obtain ⟨c, rfl, accepted⟩ := matches_atom.1 plain
        obtain ⟨noQuote, noBackslash⟩ :
            (c < quote ∨ quote < c) ∧ (c < '\\' ∨ '\\' < c) := by
          simpa [CharClass.accepts] using accepted
        refine ⟨_, .plain ?_ ?_ inside⟩
        · rintro rfl
          simp at noQuote
        · rintro rfl
          simp at noBackslash
      · obtain ⟨_, _, rfl, backslash, any⟩ := matches_sequence.1 escaped
        obtain ⟨slash, rfl, isBackslash⟩ := matches_atom.1 backslash
        obtain ⟨c, rfl, _⟩ := matches_atom.1 any
        rw [eq_of_beq isBackslash]
        exact ⟨_, .escaped c inside⟩
  | _ => cases shape

theorem isLexeme_of_quotation
    {quote : Char}
    {text : List Char}
    (isQuote : quote = '"' ∨ quote = '\'')
    (matched :
      (quotation quote).Matches (fun place c => place.accepts c = true)
        text) :
    ∃ content, IsLexeme text (.string content) := by
  obtain ⟨_, _, rfl, opens, inside⟩ := matches_sequence.1 matched
  obtain ⟨body, _, rfl, quoted, closes⟩ := matches_sequence.1 inside
  obtain ⟨first, rfl, isFirst⟩ := matches_atom.1 opens
  obtain ⟨last, rfl, isLast⟩ := matches_atom.1 closes
  obtain ⟨content, body⟩ := exists_isQuotedBody quoted
  rw [eq_of_beq isFirst, eq_of_beq isLast]
  exact ⟨_, .string isQuote body⟩

end Grammar

end VerbChain
