import VerbChain.Proofs.Source.Kinds
import VerbChain.Proofs.Source.LexicalGrammar

namespace VerbChain

/-!
# Longest match

The tokens of a text are those of its cutting into longest trivia and longest
lexemes.  Two lemmas about one scan carry this.  What a scan takes is a lexeme
(`isLexeme_of_scan`).  And where a lexeme stands in front of a text, a scan
takes something, at least as much, and the same token if it takes no more
(`scan_covers`); so a scan takes the longest lexeme, fails only where none
starts, and no two readings of one spelling compete.
-/

namespace Lexeme

theorem unescape_eq (c : Char) :
    unescape c = (escapes.lookup c).getD c := by
  by_cases lineFeed : c = 'n'
  · subst lineFeed
    rfl
  by_cases tabulator : c = 't'
  · subst tabulator
    rfl
  by_cases carriageReturn : c = 'r'
  · subst carriageReturn
    rfl
  · simp [unescape, escapes, List.lookup_cons, lineFeed, tabulator,
      carriageReturn, beq_eq_false_iff_ne.2 lineFeed,
      beq_eq_false_iff_ne.2 tabulator, beq_eq_false_iff_ne.2 carriageReturn]

theorem mem_punctuation_iff
    {c : Char}
    {token : Token} :
    (c, token) ∈ punctuation ↔ Token.ofPunctuation? c = some token := by
  constructor
  · intro listed
    simp only [punctuation, List.mem_cons, Prod.mk.injEq, List.not_mem_nil,
      or_false] at listed
    rcases listed with ⟨rfl, rfl⟩ | ⟨rfl, rfl⟩ | ⟨rfl, rfl⟩ | ⟨rfl, rfl⟩ |
      ⟨rfl, rfl⟩ | ⟨rfl, rfl⟩ <;> rfl
  · intro found
    unfold Token.ofPunctuation? at found
    split at found <;> cases found <;> simp [punctuation]

/-- A quoted body is read up to the quote behind it. -/
theorem closeString?_of_isQuotedBody
    {quote : Char}
    {body content : List Char}
    (isQuote : quote = '"' ∨ quote = '\'')
    (inside : IsQuotedBody quote body content)
    (rest : List Char) :
    closeString? quote (body ++ quote :: rest) =
      some (content, body ++ [quote], rest) := by
  have noBackslash : quote ≠ '\\' := by
    rcases isQuote with rfl | rfl <;> decide
  induction inside with
  | nil => simp [closeString?, noBackslash]
  | plain noQuote plain more inductionHypothesis =>
      simp [closeString?, noQuote, plain, inductionHypothesis]
  | escaped c more inductionHypothesis =>
      simp [closeString?, inductionHypothesis, unescape_eq]

/-- What is read up to a quote is a quoted body. -/
theorem exists_isQuotedBody
    {quote : Char}
    {text content spelling rest : List Char}
    (closed : closeString? quote text = some (content, spelling, rest)) :
    ∃ body, spelling = body ++ [quote] ∧ IsQuotedBody quote body content := by
  fun_induction closeString? quote text generalizing content spelling rest with
  | case1 => simp at closed
  | case2 => simp at closed
  | case3 escaped tail inductionHypothesis =>
      simp only [Option.map_eq_some_iff, Prod.exists, Prod.mk.injEq] at closed
      obtain ⟨inner, innerSpelling, after, found, rfl, rfl, rfl⟩ := closed
      obtain ⟨body, rfl, inside⟩ := inductionHypothesis found
      rw [unescape_eq]
      exact ⟨'\\' :: escaped :: body, rfl, .escaped escaped inside⟩
  | case4 tail noEscape noEnd =>
      simp only [Option.some.injEq, Prod.mk.injEq] at closed
      obtain ⟨rfl, rfl, rfl⟩ := closed
      exact ⟨[], rfl, .nil⟩
  | case5 c tail noEnd noEscape noQuote inductionHypothesis =>
      simp only [Option.map_eq_some_iff, Prod.exists, Prod.mk.injEq] at closed
      obtain ⟨inner, innerSpelling, after, found, rfl, rfl, rfl⟩ := closed
      obtain ⟨body, rfl, inside⟩ := inductionHypothesis found
      have noBackslash : c ≠ '\\' := by
        rintro rfl
        cases tail with
        | nil => exact noEnd rfl rfl
        | cons next others => exact noEscape next others rfl rfl
      exact ⟨c :: body, rfl, .plain noQuote noBackslash inside⟩

theorem isDigit_of_mem_takeWhile
    {text : List Char}
    {c : Char}
    (member : c ∈ text.takeWhile isDigit) :
    isDigit c = true :=
  List.all_eq_true.1 List.all_takeWhile c member

private theorem isDigit_of_mem_splitFraction
    {text : List Char}
    {c : Char}
    (member : c ∈ (splitFraction text).1) :
    isDigit c = true := by
  unfold splitFraction at member
  split at member
  · split at member
    · exact isDigit_of_mem_takeWhile member
    · cases member
  · cases member

/-- Where a digit stands a number is scanned, and it is a numeral. -/
theorem scanNumber_of_digit
    (negative : Bool)
    {text : List Char}
    (digit : text.head?.any isDigit = true) :
    let whole := text.takeWhile isDigit
    let fraction := (splitFraction (text.dropWhile isDigit)).1
    whole ≠ [] ∧
      scanNumber (if negative then ['-'] else []) text =
        .ok
          ⟨.number (.ofDecimal negative (.ofParts whole fraction)),
            (if negative then ['-'] else []) ++
              (whole ++ ((if fraction = [] then [] else ['.']) ++ fraction)),
            (splitFraction (text.dropWhile isDigit)).2⟩ := by
  intro whole fraction
  have some : whole ≠ [] := by
    cases text with
    | nil => cases digit
    | cons c tail =>
        have first : isDigit c = true := digit
        simp [whole, first]
  have fractionDigits : ∀ c ∈ fraction, isDigit c = true :=
    fun _ => isDigit_of_mem_splitFraction
  have numeral :=
    Numeral.ofNumeral?_parts negative some
      (fun _ => isDigit_of_mem_takeWhile) fractionDigits
  refine ⟨some, ?_⟩
  simp only [scanNumber, List.append_assoc]
  rw [numeral]

theorem isLexeme_of_scanNumber
    (negative : Bool)
    {text : List Char}
    {lexeme : Lexeme}
    (digit : text.head?.any isDigit = true)
    (found :
      scanNumber (if negative then ['-'] else []) text = .ok lexeme) :
    IsLexeme lexeme.spelling lexeme.token := by
  obtain ⟨some, scanned⟩ := scanNumber_of_digit negative digit
  rw [scanned] at found
  cases found
  exact .number (.parts negative some (fun _ => isDigit_of_mem_takeWhile)
    (fun _ => isDigit_of_mem_splitFraction))

theorem ofWord_eq_identifier
    {word : List Char}
    (noTrue : word ≠ "true".toList)
    (noFalse : word ≠ "false".toList) :
    Token.ofWord (String.ofList word) = .identifier (String.ofList word) := by
  have notTrue : String.ofList word ≠ "true" := by
    intro same
    rw [← same, String.toList_ofList] at noTrue
    exact noTrue rfl
  have notFalse : String.ofList word ≠ "false" := by
    intro same
    rw [← same, String.toList_ofList] at noFalse
    exact noFalse rfl
  rw [Token.ofWord, if_neg notTrue, if_neg notFalse]

/-- A word is a lexeme, be it a truth value or an identifier. -/
theorem isLexeme_of_word
    {c : Char}
    {others : List Char}
    (starts : startsWord c = true)
    (continues : ∀ d ∈ others, continuesWord d = true) :
    IsLexeme (c :: others) (.ofWord (String.ofList (c :: others))) := by
  by_cases isTrue : c :: others = "true".toList
  · rw [isTrue]
    exact .bool true
  by_cases isFalse : c :: others = "false".toList
  · rw [isFalse]
    exact .bool false
  · rw [ofWord_eq_identifier isTrue isFalse]
    exact .identifier starts continues isTrue isFalse

theorem isLexeme_of_scan
    {c : Char}
    {rest : List Char}
    {lexeme : Lexeme}
    (found : scan c rest = .ok lexeme) :
    IsLexeme lexeme.spelling lexeme.token := by
  rcases scan_cases found with
    ⟨token, listed, rfl⟩ | ⟨content, spelling, after, isQuote, closed, rfl⟩ |
      ⟨rfl, digit, signed⟩ | ⟨digit, unsigned⟩ | ⟨starts, rfl⟩
  · exact .punctuation (mem_punctuation_iff.2 listed)
  · obtain ⟨body, rfl, inside⟩ := exists_isQuotedBody closed
    exact .string isQuote inside
  · exact isLexeme_of_scanNumber true digit signed
  · have first : (c :: rest).head?.any isDigit = true := digit
    exact isLexeme_of_scanNumber false first unsigned
  · have continues := continuesWord_of_startsWord starts
    simp only [List.takeWhile_cons, continues, if_true]
    refine isLexeme_of_word starts ?_
    intro d member
    exact List.all_eq_true.1 List.all_takeWhile d member

/-- Digits that stand in front of a text are scanned with what goes on. -/
private theorem scanNumber_covers_whole
    (negative : Bool)
    {whole : List Char}
    (some : whole ≠ [])
    (wholeDigits : ∀ c ∈ whole, isDigit c = true)
    (rest : List Char) :
    let sign := if negative then ['-'] else []
    ∃ lexeme,
      scanNumber sign (whole ++ rest) = .ok lexeme ∧
        (sign ++ whole).length ≤ lexeme.spelling.length ∧
        (lexeme.spelling = sign ++ whole →
          lexeme.token =
            .number (.ofDecimal negative (.ofParts whole []))) := by
  intro sign
  obtain ⟨first, more, rfl⟩ := List.exists_cons_of_ne_nil some
  have digit : ((first :: more) ++ rest).head?.any isDigit = true :=
    wholeDigits first (by simp)
  obtain ⟨_, scanned⟩ := scanNumber_of_digit negative digit
  have taken :
      ((first :: more) ++ rest).takeWhile isDigit =
        (first :: more) ++ rest.takeWhile isDigit :=
    List.takeWhile_append_of_pos wholeDigits
  refine ⟨_, scanned, ?_, ?_⟩
  · rw [taken]
    simp only [sign, List.length_append]
    omega
  · intro same
    have lengths := congrArg List.length same
    simp only [sign, taken, List.length_append] at lengths
    have noMore : rest.takeWhile isDigit = [] :=
      List.length_eq_zero_iff.1 (by omega)
    have noFraction :
        (splitFraction (((first :: more) ++ rest).dropWhile isDigit)).1 =
          [] :=
      List.length_eq_zero_iff.1 (by omega)
    simp only [taken, noMore, noFraction, List.append_nil]

private theorem scanNumber_covers_fraction
    (negative : Bool)
    {whole fraction : List Char}
    (some : whole ≠ [])
    (someFraction : fraction ≠ [])
    (wholeDigits : ∀ c ∈ whole, isDigit c = true)
    (fractionDigits : ∀ c ∈ fraction, isDigit c = true)
    (rest : List Char) :
    let sign := if negative then ['-'] else []
    ∃ lexeme,
      scanNumber sign (whole ++ '.' :: (fraction ++ rest)) = .ok lexeme ∧
        (sign ++ (whole ++ '.' :: fraction)).length ≤
          lexeme.spelling.length ∧
        (lexeme.spelling = sign ++ (whole ++ '.' :: fraction) →
          lexeme.token =
            .number (.ofDecimal negative (.ofParts whole fraction))) := by
  intro sign
  have digit :
      (whole ++ '.' :: (fraction ++ rest)).head?.any isDigit = true := by
    obtain ⟨first, more, rfl⟩ := List.exists_cons_of_ne_nil some
    exact wholeDigits first (by simp)
  obtain ⟨_, scanned⟩ := scanNumber_of_digit negative digit
  obtain ⟨taken, left⟩ :=
    @takeWhile_digits_append whole ('.' :: (fraction ++ rest)) wholeDigits rfl
  have split :
      (splitFraction ('.' :: (fraction ++ rest))).1 =
        fraction ++ rest.takeWhile isDigit := by
    obtain ⟨first, more, rfl⟩ := List.exists_cons_of_ne_nil someFraction
    have firstDigit : isDigit first = true := fractionDigits first (by simp)
    rw [List.cons_append, splitFraction, if_pos firstDigit,
      ← List.cons_append, List.takeWhile_append_of_pos fractionDigits]
  refine ⟨_, scanned, ?_, ?_⟩
  · simp only [taken, left, split, someFraction, List.append_eq_nil_iff,
      false_and, if_false, sign, List.length_append, List.length_cons,
      List.length_nil]
    omega
  · intro same
    have lengths := congrArg List.length same
    simp only [taken, left, split, someFraction, List.append_eq_nil_iff,
      false_and, if_false, sign, List.length_append, List.length_cons,
      List.length_nil] at lengths
    have noMore : rest.takeWhile isDigit = [] :=
      List.length_eq_zero_iff.1 (by omega)
    simp only [taken, left, split, noMore, List.append_nil]

/-- A numeral that stands in front of a text is scanned with what goes on. -/
theorem scanNumber_covers
    (negative : Bool)
    {whole fraction : List Char}
    (some : whole ≠ [])
    (wholeDigits : ∀ c ∈ whole, isDigit c = true)
    (fractionDigits : ∀ c ∈ fraction, isDigit c = true)
    (rest : List Char) :
    let sign := if negative then ['-'] else []
    let written := whole ++ ((if fraction = [] then [] else ['.']) ++ fraction)
    ∃ lexeme,
      scanNumber sign (written ++ rest) = .ok lexeme ∧
        (sign ++ written).length ≤ lexeme.spelling.length ∧
        (lexeme.spelling = sign ++ written →
          lexeme.token =
            .number (.ofDecimal negative (.ofParts whole fraction))) := by
  intro sign written
  by_cases bare : fraction = []
  · subst bare
    simpa [written] using
      scanNumber_covers_whole negative some wholeDigits rest
  · simpa [written, bare] using
      scanNumber_covers_fraction negative some bare wholeDigits
        fractionDigits rest

/-- A word that stands in front of a text is scanned with what goes on. -/
theorem scan_covers_word
    {c : Char}
    {others : List Char}
    (starts : startsWord c = true)
    (continues : ∀ d ∈ others, continuesWord d = true)
    (rest : List Char) :
    ∃ lexeme,
      scan c (others ++ rest) = .ok lexeme ∧
        (c :: others).length ≤ lexeme.spelling.length ∧
        (lexeme.spelling = c :: others →
          lexeme.token = .ofWord (String.ofList (c :: others))) := by
  have whole : ∀ d ∈ c :: others, continuesWord d = true := by
    intro d member
    rcases List.mem_cons.1 member with rfl | inOthers
    · exact continuesWord_of_startsWord starts
    · exact continues d inOthers
  have taken := @List.takeWhile_append_of_pos _ _ _ rest whole
  refine ⟨_, scan_of_startsWord starts _, ?_, ?_⟩
  · rw [← List.cons_append, taken, List.length_append]
    omega
  · intro same
    exact congrArg (fun word => Token.ofWord (String.ofList word)) same

/--
Where a lexeme stands in front of a text, something is scanned there: no less
than the lexeme, and the lexeme's token if it is no more.
-/
theorem scan_covers
    {spelling : List Char}
    {token : Token}
    (lexical : IsLexeme spelling token)
    (rest : List Char) :
    ∃ c tail lexeme,
      spelling = c :: tail ∧
        scan c (tail ++ rest) = .ok lexeme ∧
        spelling.length ≤ lexeme.spelling.length ∧
        (lexeme.spelling = spelling → lexeme.token = token) := by
  cases lexical with
  | @punctuation c token listed =>
      have found := mem_punctuation_iff.1 listed
      refine ⟨c, [], ⟨token, [c], rest⟩, rfl, ?_, Nat.le_refl _,
        fun _ => rfl⟩
      simp [scan, found]
  | @number spelling negative decimal numeral =>
      cases numeral with
      | @parts _ whole fraction some wholeDigits fractionDigits =>
          obtain ⟨lexeme, scanned, covers, same⟩ :=
            scanNumber_covers negative some wholeDigits fractionDigits rest
          obtain ⟨first, more, rfl⟩ := List.exists_cons_of_ne_nil some
          have digit : isDigit first = true := wholeDigits first (by simp)
          cases negative with
          | true =>
              refine ⟨'-', _, lexeme, rfl, ?_, covers, same⟩
              rw [scan_minus, if_pos]
              · exact scanned
              · exact digit
          | false =>
              refine ⟨first, _, lexeme, rfl, ?_, covers, same⟩
              rw [scan_digit digit]
              exact scanned
  | @identifier c others starts continues noTrue noFalse =>
      obtain ⟨lexeme, scanned, covers, same⟩ :=
        scan_covers_word starts continues rest
      rw [ofWord_eq_identifier noTrue noFalse] at same
      exact ⟨c, others, lexeme, rfl, scanned, covers, same⟩
  | bool value =>
      cases value with
      | true =>
          obtain ⟨lexeme, scanned, covers, same⟩ :=
            @scan_covers_word 't' ['r', 'u', 'e'] rfl
              (List.all_eq_true.1 rfl) rest
          exact ⟨'t', _, lexeme, rfl, scanned, covers, same⟩
      | false =>
          obtain ⟨lexeme, scanned, covers, same⟩ :=
            @scan_covers_word 'f' ['a', 'l', 's', 'e'] rfl
              (List.all_eq_true.1 rfl) rest
          exact ⟨'f', _, lexeme, rfl, scanned, covers, same⟩
  | @string quote body content isQuote inside =>
      have closed := closeString?_of_isQuotedBody isQuote inside rest
      refine ⟨quote, body ++ [quote],
        ⟨.string (String.ofList content), quote :: (body ++ [quote]), rest⟩,
        rfl, ?_, Nat.le_refl _, fun _ => rfl⟩
      rw [List.append_assoc, List.singleton_append]
      rcases isQuote with rfl | rfl <;>
        simp [scan, Token.ofPunctuation?, closed]

/-- What a scan takes is the longest lexeme there is. -/
theorem longestPrefix_of_scan
    {c : Char}
    {rest : List Char}
    {lexeme : Lexeme}
    (found : scan c rest = .ok lexeme) :
    LongestPrefix IsSpelling lexeme.spelling lexeme.rest := by
  refine ⟨.intro lexeme.token (isLexeme_of_scan found), ?_⟩
  rintro other ⟨token, lexical⟩ ⟨left, shape⟩
  rw [scan_append found] at shape
  obtain ⟨first, tail, scanned, rfl, again, covers, _⟩ :=
    scan_covers lexical left
  rw [List.cons_append] at shape
  cases shape
  rw [found] at again
  cases again
  exact covers

/-- The longest lexeme in front of a text is what a scan takes. -/
theorem scan_of_longestPrefix
    {spelling rest : List Char}
    {token : Token}
    (longest : LongestPrefix IsSpelling spelling rest)
    (decoded : IsLexeme spelling token) :
    ∃ c tail,
      spelling = c :: tail ∧
        scan c (tail ++ rest) = .ok ⟨token, spelling, rest⟩ := by
  obtain ⟨c, tail, lexeme, shape, scanned, _, sameToken⟩ :=
    scan_covers decoded rest
  have whole : lexeme.spelling ++ lexeme.rest = spelling ++ rest := by
    rw [scan_append scanned, shape, List.cons_append]
  obtain ⟨sameSpelling, sameRest⟩ :=
    (longestPrefix_of_scan scanned).unique longest whole
  refine ⟨c, tail, shape, ?_⟩
  rw [scanned, ← sameToken sameSpelling, ← sameSpelling, ← sameRest]

/-- A scan that fails tells why no lexeme starts with the character. -/
theorem fault_of_scan
    {c : Char}
    {rest : List Char}
    {fault : LexFault}
    (found : scan c rest = .error fault) :
    fault = .startingAt c := by
  by_cases digit : isDigit c = true
  · obtain ⟨_, scanned⟩ := @scanNumber_of_digit false (c :: rest) digit
    rw [scan_digit digit] at found
    rw [if_neg (by simp)] at scanned
    rw [scanned] at found
    cases found
  unfold scan at found
  split at found
  · cases found
  by_cases isQuote : c = '"' ∨ c = '\''
  · rw [if_pos isQuote] at found
    split at found
    · cases found
    · cases found
      rw [LexFault.startingAt, if_pos isQuote]
  rw [if_neg isQuote] at found
  by_cases minus : c = '-'
  · rw [if_pos minus] at found
    by_cases signed : rest.head?.any isDigit = true
    · obtain ⟨_, scanned⟩ := scanNumber_of_digit true signed
      rw [if_pos signed, minus] at found
      rw [if_pos rfl] at scanned
      rw [scanned] at found
      cases found
    · rw [if_neg signed] at found
      cases found
      rw [LexFault.startingAt, if_neg isQuote, if_pos minus]
  rw [if_neg minus, if_neg digit] at found
  split at found
  · cases found
  · cases found
    rw [LexFault.startingAt, if_neg isQuote, if_neg minus]

theorem not_lexemeStarts_of_fault
    {c : Char}
    {rest : List Char}
    {fault : LexFault}
    (found : scan c rest = .error fault) :
    ¬LexemeStarts (c :: rest) := by
  rintro ⟨spelling, token, lexical, left, shape⟩
  obtain ⟨first, tail, lexeme, rfl, scanned, _, _⟩ := scan_covers lexical left
  rw [List.cons_append] at shape
  cases shape
  rw [found] at scanned
  cases scanned

theorem scan_of_not_lexemeStarts
    {c : Char}
    {rest : List Char}
    (noLexeme : ¬LexemeStarts (c :: rest)) :
    scan c rest = .error (.startingAt c) := by
  cases found : scan c rest with
  | ok lexeme =>
      have starts : lexeme.spelling <+: c :: rest :=
        ⟨lexeme.rest, scan_append found⟩
      exact absurd ⟨_, _, isLexeme_of_scan found, starts⟩ noLexeme
  | error fault => rw [fault_of_scan found]

/-- What was taken for a number is always a numeral. -/
theorem scan_ne_invalidNumber
    (c : Char)
    (rest spelling : List Char) :
    scan c rest ≠ .error (.invalidNumber spelling) := by
  intro found
  have fault := fault_of_scan found
  unfold LexFault.startingAt at fault
  split at fault
  · cases fault
  · split at fault <;> cases fault

end Lexeme

section Trivia

theorem splitTrivia_blank
    {c : Char}
    (blank : isBlank c = true)
    (rest : List Char) :
    (splitTrivia false (c :: rest)).1 =
      c :: (splitTrivia false rest).1 := by
  simp [splitTrivia, blank]

private theorem splitTrivia_slashes (rest : List Char) :
    (splitTrivia false ('/' :: '/' :: rest)).1 =
      '/' :: '/' :: (splitTrivia true rest).1 := by
  simp [splitTrivia, show isBlank '/' = false from rfl]

theorem splitTrivia_visible
    {c : Char}
    {rest : List Char}
    (visible : ¬isBlank c = true)
    (noComment : ¬(c = '/' ∧ rest.head? = some '/')) :
    (splitTrivia false (c :: rest)).1 = [] := by
  simp only [splitTrivia, Bool.false_and, Bool.false_or, visible, noComment,
    if_false, Bool.false_eq_true]

/-- A comment goes up to a line feed, and trivia go on behind it. -/
theorem splitTrivia_comment (text : List Char) :
    (splitTrivia true text).1 =
      text.takeWhile (· != '\n') ++
        (splitTrivia false (text.dropWhile (· != '\n'))).1 := by
  induction text with
  | nil => rfl
  | cons c rest inductionHypothesis =>
      by_cases lineFeed : c = '\n'
      · subst lineFeed
        simp [splitTrivia, show isBlank '\n' = true from rfl]
      · have inLine : (c != '\n') = true := bne_iff_ne.2 lineFeed
        simp [splitTrivia, inLine, inductionHypothesis]

theorem isTrivia_comment
    (rest : List Char)
    (behind :
      IsTrivia (splitTrivia false (rest.dropWhile (· != '\n'))).1) :
    IsTrivia ('/' :: '/' :: (splitTrivia true rest).1) := by
  rw [splitTrivia_comment]
  refine .comment ?_ behind
  intro member
  have inLine := List.all_eq_true.1 List.all_takeWhile _ member
  exact absurd inLine (by decide)

theorem isTrivia_splitTrivia (text : List Char) :
    IsTrivia (splitTrivia false text).1 := by
  match text with
  | [] => exact .nil
  | c :: rest =>
      by_cases blank : isBlank c = true
      · rw [splitTrivia_blank blank]
        exact .blank blank (isTrivia_splitTrivia rest)
      by_cases opens : c = '/' ∧ rest.head? = some '/'
      · match c, rest, opens with
        | _, _ :: more, ⟨rfl, rfl⟩ =>
            rw [splitTrivia_slashes]
            exact isTrivia_comment more (isTrivia_splitTrivia _)
      · rw [splitTrivia_visible blank opens]
        exact .nil
  termination_by text.length
  decreasing_by
    · exact Nat.lt_succ_self _
    · have shorter : (more.dropWhile (· != '\n')).length ≤ more.length :=
        (List.dropWhile_sublist _).length_le
      simp only [List.length_cons]
      omega

/-- Inside a comment no less is split off than outside. -/
theorem length_splitTrivia_le (text : List Char) :
    (splitTrivia false text).1.length ≤ (splitTrivia true text).1.length := by
  induction text with
  | nil => exact Nat.le_refl _
  | cons c rest inductionHypothesis =>
      by_cases lineFeed : c = '\n'
      · subst lineFeed
        simp [splitTrivia, show isBlank '\n' = true from rfl]
      have inLine : (c != '\n') = true := bne_iff_ne.2 lineFeed
      by_cases blank : isBlank c = true
      · simpa [splitTrivia, inLine, blank] using inductionHypothesis
      by_cases opens : c = '/' ∧ rest.head? = some '/'
      · simp [splitTrivia, opens, show isBlank '/' = false from rfl]
      · rw [splitTrivia_visible blank opens]
        exact Nat.zero_le _

/-- No less is split off than trivia that stand in front. -/
theorem length_le_splitTrivia
    {trivia : List Char}
    (blanks : IsTrivia trivia)
    (rest : List Char) :
    trivia.length ≤ (splitTrivia false (trivia ++ rest)).1.length := by
  induction blanks with
  | nil => exact Nat.zero_le _
  | blank blank more inductionHypothesis =>
      rw [List.cons_append, splitTrivia_blank blank]
      simpa using inductionHypothesis
  | @comment body more oneLine blanks inductionHypothesis =>
      have inside : ∀ c ∈ body, (c != '\n') = true := by
        intro c member
        rw [bne_iff_ne]
        rintro rfl
        exact oneLine member
      -- Behind its body the comment may go on over what follows.
      have goesOn :
          (splitTrivia true (body ++ (more ++ rest))).1 =
            body ++ (splitTrivia true (more ++ rest)).1 := by
        rw [splitTrivia_comment, splitTrivia_comment (more ++ rest),
          List.takeWhile_append_of_pos inside,
          List.dropWhile_append_of_pos inside, List.append_assoc]
      have covers := length_splitTrivia_le (more ++ rest)
      rw [List.cons_append, List.cons_append, splitTrivia_slashes,
        List.append_assoc, goesOn]
      simp only [List.length_cons, List.length_append] at *
      omega

theorem longestPrefix_splitTrivia (text : List Char) :
    LongestPrefix IsTrivia (splitTrivia false text).1
      (splitTrivia false text).2 := by
  refine ⟨isTrivia_splitTrivia text, ?_⟩
  rintro other blanks ⟨left, shape⟩
  rw [splitTrivia_append] at shape
  rw [← shape]
  exact length_le_splitTrivia blanks left

/-- The longest trivia in front of a text are what is split off. -/
theorem splitTrivia_of_longestPrefix
    {trivia rest : List Char}
    (longest : LongestPrefix IsTrivia trivia rest) :
    (splitTrivia false (trivia ++ rest)).1 = trivia ∧
      (splitTrivia false (trivia ++ rest)).2 = rest :=
  (longestPrefix_splitTrivia (trivia ++ rest)).unique longest
    (splitTrivia_append false (trivia ++ rest))

end Trivia

namespace Tokens

/-- What a text is read as when its cutting stops at a place. -/
def stopping (tokens : List Located) (last : Position) :
    List Char → Except ParseError (List Located)
  | [] => .ok (tokens ++ [⟨.endOfInput, last⟩])
  | c :: _ => .error ⟨.lexical, (LexFault.startingAt c).text, last⟩

private theorem map_stopping
    (token : Located)
    (tokens : List Located)
    (last : Position)
    (left : List Char) :
    (stopping tokens last left).map (token :: ·) =
      stopping (token :: tokens) last left := by
  cases left <;> rfl

theorem not_lexemeStarts_nil :
    ¬LexemeStarts [] := by
  rintro ⟨spelling, token, lexical, starts⟩
  obtain ⟨c, tail, _, rfl, _⟩ := Lexeme.scan_covers lexical []
  exact absurd (List.prefix_nil.1 starts) (by simp)

/-- A cutting that stops where no lexeme starts tells how a text is read. -/
theorem ofText_of_cut
    {position last : Position}
    {text left : List Char}
    {tokens : List Located}
    (cut : Cut position text tokens last left)
    (noLexeme : ¬LexemeStarts left) :
    ofText position text = stopping tokens last left := by
  induction cut with
  | @stop position trivia left skipped =>
      obtain ⟨taken, body⟩ := splitTrivia_of_longestPrefix skipped
      cases left with
      | nil =>
          rw [ofText_of_end position body, taken]
          rfl
      | cons c rest =>
          have found := Lexeme.scan_of_not_lexemeStarts noLexeme
          rw [ofText_of_fault position body found, taken]
          rfl
  | @lexeme position last trivia spelling rest left token tokens skipped
      longest decoded more inductionHypothesis =>
      obtain ⟨taken, body⟩ := splitTrivia_of_longestPrefix skipped
      obtain ⟨c, tail, shape, scanned⟩ :=
        Lexeme.scan_of_longestPrefix longest decoded
      rw [shape, List.cons_append] at body
      rw [ofText_of_lexeme position (by rw [← body, shape]; rfl) scanned]
      rw [taken, inductionHypothesis noLexeme, map_stopping]

/-- A text can be cut where its trivia are followed by no lexeme. -/
theorem cut_stop
    (position : Position)
    {text left : List Char}
    (body : (splitTrivia false text).2 = left) :
    Cut position text [] (position.after (splitTrivia false text).1) left := by
  have whole := splitTrivia_append false text
  have longest := longestPrefix_splitTrivia text
  rw [body] at whole longest
  have stop := @Cut.stop position _ _ longest
  rwa [whole] at stop

/-- Every text can be cut up to a place where no lexeme starts. -/
theorem exists_cut
    (position : Position)
    (text : List Char) :
    ∃ tokens last left,
      Cut position text tokens last left ∧ ¬LexemeStarts left := by
  fun_induction ofText position text with
  | case1 position text here body =>
      exact ⟨[], here, [], cut_stop position body, not_lexemeStarts_nil⟩
  | case2 position text here c rest body fault found =>
      exact ⟨[], here, c :: rest, cut_stop position body,
        Lexeme.not_lexemeStarts_of_fault found⟩
  | case3 position text here c rest body lexeme found inductionHypothesis =>
      obtain ⟨tokens, last, left, more, noLexeme⟩ := inductionHypothesis
      have whole := splitTrivia_append false text
      have skipped := longestPrefix_splitTrivia text
      rw [body, ← Lexeme.scan_append found] at whole skipped
      have cut := Cut.lexeme skipped (Lexeme.longestPrefix_of_scan found)
        (Lexeme.isLexeme_of_scan found) more
      rw [whole] at cut
      exact ⟨_, last, left, cut, noLexeme⟩

/--
A text has the tokens of its longest-match cutting if that takes up the whole
text, and is no program from the place on where no lexeme starts.  What was
taken for a number is a numeral, so numbers never fail.
-/
theorem ofSource_longest_match (source : String) :
    (∀ tokens,
      ofSource source = .ok tokens ↔
        ∃ taken last,
          Cut .start source.toList taken last [] ∧
            tokens = taken ++ [⟨.endOfInput, last⟩]) ∧
      (∀ error,
        ofSource source = .error error ↔
          ∃ taken last c rest,
            Cut .start source.toList taken last (c :: rest) ∧
              ¬LexemeStarts (c :: rest) ∧
              error = ⟨.lexical, (LexFault.startingAt c).text, last⟩) ∧
      (∀ spelling value,
        IsLexeme spelling (.number value) →
          Binary64.ofNumeral? spelling = some value) ∧
      ∀ c rest spelling,
        Lexeme.scan c rest ≠ .error (.invalidNumber spelling) := by
  obtain ⟨taken, last, left, cut, noLexeme⟩ :=
    exists_cut .start source.toList
  have read : ofSource source = stopping taken last left :=
    ofText_of_cut cut noLexeme
  refine ⟨?_, ?_, ?_, Lexeme.scan_ne_invalidNumber⟩
  · intro tokens
    constructor
    · intro found
      rw [read] at found
      cases left with
      | nil =>
          cases found
          exact ⟨taken, last, cut, rfl⟩
      | cons c rest => cases found
    · rintro ⟨others, final, whole, rfl⟩
      exact ofText_of_cut whole not_lexemeStarts_nil
  · intro error
    constructor
    · intro found
      rw [read] at found
      cases left with
      | nil => cases found
      | cons c rest =>
          cases found
          exact ⟨taken, last, c, rest, cut, noLexeme, rfl⟩
    · rintro ⟨others, final, c, rest, partly, noneStarts, rfl⟩
      exact ofText_of_cut partly noneStarts
  · intro spelling value lexical
    cases lexical with
    | punctuation listed => simp [punctuation] at listed
    | @number spelling negative decimal numeral =>
        cases numeral with
        | parts _ some wholeDigits fractionDigits =>
            exact Numeral.ofNumeral?_parts negative some wholeDigits
              fractionDigits

end Tokens

end VerbChain
