import VerbChain.Proofs.Chain.RoundTrip
import VerbChain.Proofs.Number.Overflow
import VerbChain.Proofs.Source.Literals

namespace VerbChain

/-!
# Reading a program, writing it and reading it again

The numbers of a chain that was read are those of the numerals in its program.
A numeral may be as long as one likes, and one that is too great is read as an
infinity.  An infinity is written as a word, so the chain is read again as
itself exactly when every numeral of the program fits.
-/

private theorem mem_of_mem_joined
    {separator : List α}
    {items : List (List α)}
    {element : α}
    (member : element ∈ joined separator items) :
    element ∈ separator ∨ ∃ item ∈ items, element ∈ item := by
  induction items with
  | nil => cases member
  | cons first others inductionHypothesis =>
      cases others with
      | nil => exact .inr ⟨first, List.mem_cons_self, member⟩
      | cons second others =>
          simp only [joined, List.mem_append] at member
          rcases member with inFirst | inSeparator | inOthers
          · exact .inr ⟨first, List.mem_cons_self, inFirst⟩
          · exact .inl inSeparator
          · rcases inductionHypothesis inOthers with
              inSeparator | ⟨item, given, inItem⟩
            · exact .inl inSeparator
            · exact .inr ⟨item, List.mem_cons_of_mem _ given, inItem⟩

/-- The numbers of items are those among the tokens of the joined items. -/
private theorem number_mem_joined_iff
    {items : List α}
    {tokens : α → List Token}
    {numbers : α → List Binary64}
    {mark : Token}
    {value : Binary64}
    (noNumber : mark ≠ .number value)
    (each : ∀ item, .number value ∈ tokens item ↔ value ∈ numbers item) :
    .number value ∈ joined [mark] (items.map tokens) ↔
      value ∈ items.flatMap numbers := by
  constructor
  · intro member
    rcases mem_of_mem_joined member with isMark | ⟨text, given, inText⟩
    · exact absurd (List.mem_singleton.1 isMark).symm noNumber
    · obtain ⟨item, inItems, rfl⟩ := List.mem_map.1 given
      exact List.mem_flatMap.2 ⟨item, inItems, (each item).1 inText⟩
  · intro member
    obtain ⟨item, inItems, inItem⟩ := List.mem_flatMap.1 member
    exact mem_joined (List.mem_map_of_mem inItems) ((each item).2 inItem)

theorem Argument.number_mem_tokens_iff
    {value : Binary64}
    (argument : Argument) :
    .number value ∈ argument.tokens ↔ value ∈ argument.value.numbers := by
  obtain ⟨name, given⟩ := argument
  cases name <;> cases given <;>
    simp [Argument.tokens, Value.tokens, Value.numbers]

theorem Call.number_mem_tokens_iff
    {value : Binary64}
    (call : Call) :
    .number value ∈ call.tokens ↔ value ∈ call.numbers := by
  have arguments :=
    @number_mem_joined_iff _ call.arguments Argument.tokens
      (fun argument => argument.value.numbers) .comma value (by simp)
      Argument.number_mem_tokens_iff
  simpa [Call.tokens, Call.numbers] using arguments

namespace Chain

/-- The numbers of a chain are those among its tokens. -/
theorem number_mem_tokens_iff
    {value : Binary64}
    (chain : Chain) :
    .number value ∈ chain.tokens ↔ value ∈ chain.numbers :=
  number_mem_joined_iff (by simp) Call.number_mem_tokens_iff

/-- The tokens that a cutting takes all count. -/
theorem body_of_cut
    {position last place : Position}
    {text left : List Char}
    {taken : List Located}
    (cut : Cut position text taken last left) :
    body (taken ++ [⟨.endOfInput, place⟩]) = taken.map Located.token := by
  refine body_of_ending (fun located member => ?_) rfl
  obtain ⟨_, _, _, _, _, lexical⟩ := cut.exists_lexeme member
  exact Tokens.ne_endOfInput_of_isLexeme lexical

private theorem tokens_of_ofSource
    {source : String}
    {chain : Chain}
    (read : ofSource source = .ok chain) :
    ∃ taken last,
      Tokens.ofSource source = .ok (taken ++ [⟨.endOfInput, last⟩]) ∧
        taken.map Located.token = chain.tokens := by
  cases found : Tokens.ofSource source with
  | error error =>
      rw [ofSource, found] at read
      cases read
  | ok tokens =>
      obtain ⟨taken, last, cut, rfl⟩ := Tokens.exists_cut_of_ofSource found
      refine ⟨taken, last, rfl, ?_⟩
      simp only [ofSource, found, ofLocated_eq_ok_iff] at read
      rw [← read, body_of_cut cut]

/-- The numbers of a chain that was read are those of numerals. -/
theorem mem_numbers_iff
    {source : String}
    {chain : Chain}
    {value : Binary64}
    (read : ofSource source = .ok chain) :
    value ∈ chain.numbers ↔
      ∃ place spelling negative decimal,
        CutsOff source.toList place spelling ∧
          IsNumeral spelling negative decimal ∧
          value = .ofDecimal negative decimal := by
  obtain ⟨taken, last, found, tokens⟩ := tokens_of_ofSource read
  have cutsOff := fun place =>
    @Tokens.mem_iff_cutsOff source _ (.number value) place found (by simp)
  rw [← number_mem_tokens_iff, ← tokens, List.mem_map]
  constructor
  · rintro ⟨⟨token, place⟩, member, rfl⟩
    obtain ⟨spelling, cut, lexical⟩ :=
      (cutsOff place).1 (List.mem_append_left _ member)
    cases lexical with
    | punctuation listed => simp [punctuation] at listed
    | @number _ negative decimal numeral =>
        exact ⟨place, spelling, negative, decimal, cut, numeral, rfl⟩
  · rintro ⟨place, spelling, negative, decimal, cut, numeral, rfl⟩
    have member := (cutsOff place).2 ⟨spelling, cut, .number numeral⟩
    rcases List.mem_append.1 member with inTaken | isEnd
    · exact ⟨_, inTaken, rfl⟩
    · simp at isEnd

/--
A chain that was read is read again as itself exactly when every numeral of its
program fits, and otherwise as what is left of it with words for infinities.
-/
theorem ofSource_render_iff_fits
    {source : String}
    {chain : Chain}
    (read : ofSource source = .ok chain) :
    ((∃ again,
        ofSource chain.render = .ok again ∧ again.agrees chain = true) ↔
      ∀ place spelling negative decimal,
        CutsOff source.toList place spelling →
          IsNumeral spelling negative decimal → decimal.Fits) ∧
      ∀ again,
        ofSource chain.render = .ok again ↔ chain.reread? = some again := by
  have named := names_of_ofSource read
  refine ⟨?_, fun again => ofSource_render_iff named⟩
  constructor
  · rintro ⟨again, found, agree⟩ place spelling negative decimal cut numeral
    obtain ⟨sameNames, sameCount⟩ := shape_of_agrees agree
    have readable := isReadable_of_reread found sameNames sameCount
    have finite := List.all_eq_true.1 (Bool.and_eq_true_iff.1 readable).2
    have member := (mem_numbers_iff read).2
      ⟨place, spelling, negative, decimal, cut, numeral, rfl⟩
    exact (Binary64.isFinite_ofDecimal_iff negative decimal).1
      (finite _ member)
  · intro fits
    have finite : ∀ number ∈ chain.numbers, number.isFinite = true := by
      intro number member
      obtain ⟨place, spelling, negative, decimal, cut, numeral, rfl⟩ :=
        (mem_numbers_iff read).1 member
      exact (Binary64.isFinite_ofDecimal_iff negative decimal).2
        (fits place spelling negative decimal cut numeral)
    exact ⟨chain, (ofSource_render_iff named).2 (reread?_eq_self finite),
      agrees_self finite⟩

/-- What is read from a program with a fraction. -/
theorem ofSource_render_half :
    let chain := Chain.mk
      [⟨"f", [.positional (.number (.ofDecimal false ⟨5, -1⟩))]⟩]
    ofSource "f(0.5)" = .ok chain ∧
      ((∃ again,
          ofSource chain.render = .ok again ∧ again.agrees chain = true) ↔
        ∀ place spelling negative decimal,
          CutsOff "f(0.5)".toList place spelling →
            IsNumeral spelling negative decimal → decimal.Fits) ∧
      ∀ again,
        ofSource chain.render = .ok again ↔ chain.reread? = some again := by
  intro chain
  have written : chain.render = "f(0.5)" := by decide +kernel
  have read : ofSource chain.render = .ok chain :=
    (ofSource_render_iff (by decide)).2 (by decide +kernel)
  rw [written] at read
  exact ⟨read, ofSource_render_iff_fits read⟩

/-- A call with digits only is read as a call with their number. -/
theorem ofSource_digits
    {digits : List Char}
    (some : digits ≠ [])
    (allDigits : ∀ c ∈ digits, isDigit c = true) :
    ofSource (String.ofList ('f' :: '(' :: (digits ++ [')']))) =
      .ok
        ⟨[⟨"f",
          [.positional (.number (.ofDecimal false (.ofParts digits [])))]⟩]⟩ := by
  have numeral := @IsNumeral.parts false digits [] some allDigits (by simp)
  have number :=
    @Tokens.kinds?_isLexeme _ [')'] _ (.number numeral) (.inr ⟨rfl, rfl⟩)
  have word :=
    @Tokens.kinds?_name "f" ('(' :: (digits ++ [')'])) (by decide) rfl
  rw [ofSource_eq_ok_iff, String.toList_ofList]
  change Tokens.kinds? ("f".toList ++ _) = _
  rw [word, Tokens.kinds?_punctuation rfl]
  simp only [Bool.false_eq_true, if_false, if_true, List.nil_append,
    List.append_nil] at number
  rw [number, Tokens.kinds?_punctuation rfl, Tokens.kinds?_nil]
  rfl

/--
A numeral of 309 nines does not fit: its chain is read again, but its number
has become a word.
-/
theorem ofSource_render_nines :
    let source := String.ofList ('f' :: '(' :: (List.replicate 309 '9' ++ [')']))
    let chain := Chain.mk [⟨"f", [.positional (.number (.infinite false))]⟩]
    let again := Chain.mk [⟨"f", [.positional (.identifier "inf")]⟩]
    ofSource source = .ok chain ∧ ofSource chain.render = .ok again ∧
      again.agrees chain = false := by
  intro source chain again
  have value :
      Binary64.ofDecimal false (.ofParts (List.replicate 309 '9') []) =
        .infinite false := by
    decide +kernel
  have read := @ofSource_digits (List.replicate 309 '9')
    (List.cons_ne_nil _ _) (by
    intro c member
    rw [(List.mem_replicate.1 member).2]
    rfl)
  rw [value] at read
  exact ⟨read, (ofSource_render_iff (by decide)).2 rfl, rfl⟩

end Chain

end VerbChain
