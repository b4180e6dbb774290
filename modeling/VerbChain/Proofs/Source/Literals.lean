import VerbChain.Proofs.Source.LongestMatch

namespace VerbChain

/-!
# The lexemes of a text

A lexeme is scanned in front of every text that does not go on with it.  And a
cutting can be stopped in front of any of its lexemes and be taken up again
behind it, so the tokens of a text are those of the lexemes that it is cut
into, each of them and no other.
-/

/-- Whether a token is a punctuation character. -/
def Token.isMark : Token → Bool
  | .leftParen | .rightParen | .comma | .dot | .equals | .at => true
  | _ => false

namespace Lexeme

theorem scan_of_isNumeral
    {spelling rest : List Char}
    {negative : Bool}
    {decimal : Decimal}
    (numeral : IsNumeral spelling negative decimal)
    (endsNumber : rest.head?.any continuesNumber = false) :
    ∃ c tail,
      spelling = c :: tail ∧
        scan c (tail ++ rest) =
          .ok ⟨.number (.ofDecimal negative decimal), spelling, rest⟩ := by
  cases numeral with
  | @parts _ whole fraction some wholeDigits fractionDigits =>
      have scanned :=
        scanNumber_parts negative some wholeDigits fractionDigits endsNumber
      obtain ⟨digit, more, rfl⟩ := List.exists_cons_of_ne_nil some
      have first : isDigit digit = true :=
        wholeDigits digit List.mem_cons_self
      cases negative with
      | true =>
          refine ⟨'-', _, rfl, ?_⟩
          rw [scan_minus, if_pos]
          · exact scanned
          · exact first
      | false =>
          refine ⟨digit, _, rfl, ?_⟩
          rw [scan_digit first]
          exact scanned

/-- A lexeme is scanned in front of a text that does not go on with it. -/
theorem scan_of_isLexeme
    {spelling rest : List Char}
    {token : Token}
    (lexical : IsLexeme spelling token)
    (apart :
      token.isMark = true ∨
        rest.head?.any continuesWord = false ∧
          rest.head?.any continuesNumber = false) :
    ∃ c tail,
      spelling = c :: tail ∧
        scan c (tail ++ rest) = .ok ⟨token, spelling, rest⟩ := by
  cases lexical with
  | @punctuation c token listed =>
      have found := mem_punctuation_iff.1 listed
      exact ⟨c, [], rfl, by simp [scan, found]⟩
  | number numeral =>
      have endsNumber := (apart.resolve_left (by simp [Token.isMark])).2
      exact scan_of_isNumeral numeral endsNumber
  | @identifier c others starts continues noTrue noFalse =>
      have word :=
        scan_word starts continues
          (apart.resolve_left (by simp [Token.isMark])).1
      rw [ofWord_eq_identifier noTrue noFalse] at word
      exact ⟨c, others, rfl, word⟩
  | bool value =>
      have endsWord := (apart.resolve_left (by simp [Token.isMark])).1
      cases value with
      | true =>
          exact ⟨'t', _, rfl,
            @scan_word 't' ['r', 'u', 'e'] rest rfl (List.all_eq_true.1 rfl)
              endsWord⟩
      | false =>
          exact ⟨'f', _, rfl,
            @scan_word 'f' ['a', 'l', 's', 'e'] rest rfl
              (List.all_eq_true.1 rfl) endsWord⟩
  | @string quote body content isQuote inside =>
      have closed := closeString?_of_isQuotedBody isQuote inside rest
      refine ⟨quote, body ++ [quote], rfl, ?_⟩
      rw [List.append_assoc, List.singleton_append]
      rcases isQuote with rfl | rfl <;>
        simp [scan, Token.ofPunctuation?, closed]

end Lexeme

/-- A lexeme's token stands in front of the tokens of what follows it. -/
theorem Tokens.kinds?_isLexeme
    {spelling rest : List Char}
    {token : Token}
    (lexical : IsLexeme spelling token)
    (apart :
      token.isMark = true ∨
        rest.head?.any continuesWord = false ∧
          rest.head?.any Lexeme.continuesNumber = false) :
    kinds? (spelling ++ rest) = (kinds? rest).map (token :: ·) := by
  obtain ⟨c, tail, shape, found⟩ := Lexeme.scan_of_isLexeme lexical apart
  rw [shape, List.cons_append]
  exact kinds?_lexeme found

/-- A text is cut, up to a place where a spelling is the lexeme to take. -/
def CutsOff (text : List Char) (place : Position) (spelling : List Char) :
    Prop :=
  ∃ tokens rest,
    Cut .start text tokens place (spelling ++ rest) ∧
      LongestPrefix IsSpelling spelling rest

namespace Cut

/-- A cutting that stops in front of a lexeme is taken up again behind it. -/
theorem append
    {position place last : Position}
    {text middle spelling rest left : List Char}
    {token : Token}
    {tokens others : List Located}
    (first : Cut position text tokens place middle)
    (shape : middle = spelling ++ rest)
    (longest : LongestPrefix IsSpelling spelling rest)
    (decoded : IsLexeme spelling token)
    (more : Cut (place.after spelling) rest others last left) :
    Cut position text (tokens ++ ⟨token, place⟩ :: others) last left := by
  induction first with
  | stop skipped =>
      subst shape
      exact .lexeme skipped longest decoded more
  | lexeme skipped longestFirst decodedFirst _ inductionHypothesis =>
      exact .lexeme skipped longestFirst decodedFirst
        (inductionHypothesis shape more)

/-- A cutting passes the place of every token that it takes. -/
theorem exists_split
    {position last : Position}
    {text left : List Char}
    {tokens taken later : List Located}
    {located : Located}
    (cut : Cut position text tokens last left)
    (shape : tokens = taken ++ located :: later) :
    ∃ spelling rest,
      Cut position text taken located.position (spelling ++ rest) ∧
        LongestPrefix IsSpelling spelling rest ∧
        IsLexeme spelling located.token ∧
        Cut (located.position.after spelling) rest later last left := by
  induction cut generalizing taken with
  | stop => simp at shape
  | @lexeme _ _ _ _ _ _ _ _ skipped longest decoded more
      inductionHypothesis =>
      cases taken with
      | nil =>
          cases shape
          exact ⟨_, _, .stop skipped, longest, decoded, more⟩
      | cons first others =>
          obtain ⟨rfl, shapeBehind⟩ := List.cons.inj shape
          obtain ⟨spelling, rest, before, longestThere, lexical, behind⟩ :=
            inductionHypothesis shapeBehind
          exact ⟨spelling, rest, .lexeme skipped longest decoded before,
            longestThere, lexical, behind⟩

/-- Every token that is taken off is that of a lexeme at its place. -/
theorem exists_lexeme
    {position last : Position}
    {text left : List Char}
    {tokens : List Located}
    {located : Located}
    (cut : Cut position text tokens last left)
    (member : located ∈ tokens) :
    ∃ earlier spelling rest,
      Cut position text earlier located.position (spelling ++ rest) ∧
        LongestPrefix IsSpelling spelling rest ∧
        IsLexeme spelling located.token := by
  obtain ⟨earlier, later, shape⟩ := List.append_of_mem member
  obtain ⟨spelling, rest, before, longest, lexical, _⟩ :=
    cut.exists_split shape
  exact ⟨earlier, spelling, rest, before, longest, lexical⟩

end Cut

namespace Tokens

theorem ne_endOfInput_of_isLexeme
    {spelling : List Char}
    {token : Token}
    (lexical : IsLexeme spelling token) :
    token ≠ .endOfInput := by
  cases lexical with
  | punctuation listed =>
      rintro rfl
      simp [punctuation] at listed
  | number => simp
  | identifier => simp
  | bool => simp
  | string => simp

/-- A text that has tokens is cut into them up to its end. -/
theorem exists_cut_of_ofSource
    {source : String}
    {tokens : List Located}
    (found : ofSource source = .ok tokens) :
    ∃ taken last,
      Cut .start source.toList taken last [] ∧
        tokens = taken ++ [⟨.endOfInput, last⟩] := by
  obtain ⟨taken, last, left, cut, noLexeme⟩ :=
    exists_cut .start source.toList
  have read : ofSource source = stopping taken last left :=
    ofText_of_cut cut noLexeme
  rw [found] at read
  cases left with
  | nil =>
      cases read
      exact ⟨taken, last, cut, rfl⟩
  | cons c rest => cases read

/-- The tokens of a text are those of the lexemes that it is cut into. -/
theorem mem_iff_cutsOff
    {source : String}
    {tokens : List Located}
    {token : Token}
    {place : Position}
    (found : ofSource source = .ok tokens)
    (some : token ≠ .endOfInput) :
    ⟨token, place⟩ ∈ tokens ↔
      ∃ spelling,
        CutsOff source.toList place spelling ∧ IsLexeme spelling token := by
  obtain ⟨taken, last, cut, rfl⟩ := exists_cut_of_ofSource found
  constructor
  · intro member
    rcases List.mem_append.1 member with inTaken | isEnd
    · obtain ⟨earlier, spelling, rest, partly, longest, lexical⟩ :=
        cut.exists_lexeme inTaken
      exact ⟨spelling, ⟨earlier, rest, partly, longest⟩, lexical⟩
    · rw [List.mem_singleton] at isEnd
      cases isEnd
      exact absurd rfl some
  · rintro ⟨spelling, ⟨earlier, rest, partly, longest⟩, lexical⟩
    obtain ⟨others, final, left, more, noLexeme⟩ :=
      exists_cut (place.after spelling) rest
    have whole := partly.append rfl longest lexical more
    have read : ofSource source = stopping _ final left :=
      ofText_of_cut whole noLexeme
    rw [found] at read
    cases left with
    | nil =>
        rw [stopping, Except.ok.injEq] at read
        rw [read]
        simp
    | cons c rest => cases read

end Tokens

end VerbChain
