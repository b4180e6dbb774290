import VerbChain.Proofs.Chain.Stability
import VerbChain.Proofs.Source.Places

namespace VerbChain

/-!
# Layout does not count

Blanks and comments may be put in front of any token of a text and behind the
last one.  Two runs are compared for this.  Up to the place of the insertion a
scan takes what it took before: it looks two characters ahead at most, and
inserted trivia start with a character that no lexeme goes on with.  From there
on the same text is left, because trivia that are closed are skipped whole.
-/

/-- Blanks and comments, every comment with the line feed that ends it. -/
inductive IsClosedTrivia : List Char → Prop where
  | nil : IsClosedTrivia []
  | blank
      {c : Char}
      {rest : List Char}
      (blank : isBlank c = true)
      (more : IsClosedTrivia rest) :
      IsClosedTrivia (c :: rest)
  | comment
      {body rest : List Char}
      (oneLine : '\n' ∉ body)
      (more : IsClosedTrivia rest) :
      IsClosedTrivia ('/' :: '/' :: (body ++ '\n' :: rest))

section Trivia

theorem IsTrivia.append
    {first second : List Char}
    (left : IsTrivia first)
    (right : IsTrivia second) :
    IsTrivia (first ++ second) := by
  induction left with
  | nil => exact right
  | blank blank more inductionHypothesis =>
      exact .blank blank inductionHypothesis
  | comment oneLine more inductionHypothesis =>
      rw [List.cons_append, List.cons_append, List.append_assoc]
      exact .comment oneLine inductionHypothesis

theorem IsClosedTrivia.isTrivia
    {between : List Char}
    (closed : IsClosedTrivia between) :
    IsTrivia between := by
  induction closed with
  | nil => exact .nil
  | blank blank more inductionHypothesis =>
      exact .blank blank inductionHypothesis
  | comment oneLine more inductionHypothesis =>
      exact .comment oneLine (.blank rfl inductionHypothesis)

/-- Nothing is left of a text that is trivia. -/
theorem splitTrivia_of_isTrivia
    {text : List Char}
    (blanks : IsTrivia text) :
    (splitTrivia false text).2 = [] := by
  have covers := length_le_splitTrivia blanks []
  have whole := congrArg List.length (splitTrivia_append false text)
  rw [List.append_nil] at covers
  rw [List.length_append] at whole
  exact List.length_eq_zero_iff.1 (by omega)

/-- A comment with its line feed is skipped whole. -/
theorem splitTrivia_line
    {body : List Char}
    (oneLine : '\n' ∉ body)
    (rest : List Char) :
    (splitTrivia true (body ++ '\n' :: rest)).2 =
      (splitTrivia false rest).2 := by
  induction body with
  | nil => simp [splitTrivia, show isBlank '\n' = true from rfl]
  | cons c body inductionHypothesis =>
      rw [List.mem_cons, not_or] at oneLine
      have inLine : (c != '\n') = true := bne_iff_ne.2 (Ne.symm oneLine.1)
      simp [splitTrivia, inLine, inductionHypothesis oneLine.2]

/-- Closed trivia are skipped whole, whatever stands behind them. -/
theorem splitTrivia_closed
    {between : List Char}
    (closed : IsClosedTrivia between)
    (rest : List Char) :
    (splitTrivia false (between ++ rest)).2 = (splitTrivia false rest).2 := by
  induction closed with
  | nil => rfl
  | blank blank more inductionHypothesis =>
      simp [splitTrivia, blank, inductionHypothesis]
  | @comment body others oneLine more inductionHypothesis =>
      have line := splitTrivia_line oneLine (others ++ rest)
      simp only [List.cons_append, List.append_assoc]
      simp [splitTrivia, show isBlank '/' = false from rfl, line,
        inductionHypothesis]

/--
Trivia that something is left behind are not inside a comment at their end, so
they are skipped in front of any other text, too.
-/
theorem splitTrivia_behind
    {inComment : Bool}
    {trivia left : List Char}
    (remains : left ≠ [])
    (split : splitTrivia inComment (trivia ++ left) = (trivia, left))
    (other : List Char) :
    (splitTrivia inComment (trivia ++ other)).2 =
      (splitTrivia false other).2 := by
  induction trivia generalizing inComment with
  | nil =>
      cases inComment with
      | false => rfl
      | true =>
          -- Inside a comment every first character would be skipped.
          obtain ⟨c, rest, rfl⟩ := List.exists_cons_of_ne_nil remains
          by_cases lineFeed : c = '\n' <;>
            simp [splitTrivia, lineFeed, show isBlank '\n' = true from rfl]
              at split
  | cons c trivia inductionHypothesis =>
      rw [List.cons_append, splitTrivia] at split ⊢
      split at split
      · next skipped =>
          rw [if_pos skipped]
          simp only [Prod.mk.injEq, List.cons.injEq, true_and] at split
          exact inductionHypothesis (Prod.ext split.1 split.2)
      · next visible =>
          split at split
          · next opens =>
              simp only [Prod.mk.injEq, List.cons.injEq, true_and] at split
              have behind := inductionHypothesis (Prod.ext split.1 split.2)
              cases trivia with
              | nil =>
                  obtain ⟨d, rest, rfl⟩ := List.exists_cons_of_ne_nil remains
                  by_cases lineFeed : d = '\n' <;>
                    simp [splitTrivia, lineFeed,
                      show isBlank '\n' = true from rfl] at split
              | cons d others =>
                  have opensStill :
                      c = '/' ∧ (d :: others ++ other).head? = some '/' :=
                    opens
                  rw [if_neg visible, if_pos opensStill]
                  exact behind
          · simp at split

end Trivia

namespace Lexeme

private theorem head?_dropWhile (p : Char → Bool) (text : List Char) :
    (text.dropWhile p).head?.any p = false := by
  induction text with
  | nil => rfl
  | cons c rest inductionHypothesis =>
      rw [List.dropWhile_cons]
      split
      · exact inductionHypothesis
      · next stops => simpa using stops

/-- What goes on only where a text behind all that fits does never goes on. -/
private theorem head?_of_dropWhile
    {p : Char → Bool}
    {text other : List Char}
    (further :
      other.head?.any p = true → (text.dropWhile p).head?.any p = true) :
    other.head?.any p = false := by
  rw [← Bool.not_eq_true]
  intro goesOn
  have fits := further goesOn
  rw [head?_dropWhile] at fits
  cases fits

/--
A text goes on no further with a lexeme in front of it than another text does:
not with a word, not with digits and not with a fraction.
-/
structure NoFurther (text other : List Char) : Prop where
  word :
    text.head?.any continuesWord = true →
      other.head?.any continuesWord = true
  digits : text.head?.any isDigit = true → other.head?.any isDigit = true
  fraction : (splitFraction text).1 ≠ [] → (splitFraction other).1 ≠ []

theorem NoFurther.refl (text : List Char) :
    NoFurther text text :=
  ⟨id, id, id⟩

/-- Where no fraction is split off nothing is. -/
theorem splitFraction_eq_self
    {text : List Char}
    (none : (splitFraction text).1 = []) :
    splitFraction text = ([], text) := by
  have whole := splitFraction_append text
  rw [none, if_pos rfl, List.nil_append, List.nil_append] at whole
  exact Prod.ext none whole

/-- The digits behind a point are split off as a fraction. -/
theorem splitFraction_point
    {behind : List Char}
    (digit : behind.head?.any isDigit = true) :
    splitFraction ('.' :: behind) =
      (behind.takeWhile isDigit, behind.dropWhile isDigit) := by
  cases behind with
  | nil => cases digit
  | cons c rest =>
      have first : isDigit c = true := digit
      rw [splitFraction, if_pos first]

/-- A fraction that is split off stands behind a point. -/
private theorem exists_point
    {text : List Char}
    (fraction : (splitFraction text).1 ≠ []) :
    ∃ behind, text = '.' :: behind ∧ behind.head?.any isDigit = true := by
  fun_cases splitFraction text with
  | case1 digit rest first => exact ⟨digit :: rest, rfl, first⟩
  | case2 digit rest first => simp [splitFraction, first] at fraction
  | case3 noPoint => simp [splitFraction] at fraction

/-- A fraction is split off again in front of what goes on no further. -/
private theorem splitFraction_again
    {text other : List Char}
    (noFurther : NoFurther other (splitFraction text).2) :
    let fraction := (splitFraction text).1
    splitFraction
        ((if fraction = [] then [] else ['.']) ++ fraction ++ other) =
      (fraction, other) := by
  intro fraction
  by_cases none : fraction = []
  · have rest := splitFraction_eq_self none
    have otherNone : (splitFraction other).1 = [] := by
      refine Classical.byContradiction fun goesOn => ?_
      have further := noFurther.fraction goesOn
      rw [rest, rest] at further
      exact further rfl
    rw [none]
    exact splitFraction_eq_self otherNone
  · obtain ⟨behind, rfl, digit⟩ := exists_point none
    have split := splitFraction_point digit
    rw [split] at noFurther
    have digits : fraction = behind.takeWhile isDigit := congrArg Prod.fst split
    have ends : other.head?.any isDigit = false :=
      head?_of_dropWhile noFurther.digits
    have allDigits : ∀ c ∈ fraction, isDigit c = true := by
      rw [digits]
      exact fun _ => isDigit_of_mem_takeWhile
    obtain ⟨taken, left⟩ := takeWhile_digits_append allDigits ends
    have starts : (fraction ++ other).head?.any isDigit = true := by
      obtain ⟨c, rest, shape⟩ := List.exists_cons_of_ne_nil none
      simpa [shape] using allDigits c (shape ▸ List.mem_cons_self)
    rw [if_neg none, List.singleton_append, List.cons_append,
      splitFraction_point starts, taken, left]

/-- What stands behind the digits of a number starts with none. -/
theorem NoFurther.endsDigits
    {text other : List Char}
    (noFurther : NoFurther other (splitFraction text).2)
    (ends : text.head?.any isDigit = false) :
    let fraction := (splitFraction text).1
    ((if fraction = [] then [] else ['.']) ++ fraction ++
      other).head?.any isDigit = false := by
  intro fraction
  by_cases none : fraction = []
  · have digits := noFurther.digits
    rw [splitFraction_eq_self none, ends] at digits
    rw [none, if_pos rfl, List.append_nil, List.nil_append]
    exact Bool.eq_false_iff.2 fun goesOn => Bool.false_ne_true (digits goesOn)
  · rw [if_neg none]
    rfl

/-- A number is scanned again in front of what goes on no further. -/
theorem scanNumber_again
    (negative : Bool)
    {digit : Char}
    {rest other : List Char}
    {lexeme : Lexeme}
    (isFirst : isDigit digit = true)
    (found :
      scanNumber (if negative then ['-'] else []) (digit :: rest) =
        .ok lexeme)
    (noFurther : NoFurther other lexeme.rest) :
    ∃ tail,
      lexeme.spelling = (if negative then ['-'] else []) ++ digit :: tail ∧
        scanNumber (if negative then ['-'] else [])
            (digit :: (tail ++ other)) =
          .ok { lexeme with rest := other } := by
  obtain ⟨_, scanned⟩ :=
    @scanNumber_of_digit negative (digit :: rest) isFirst
  rw [scanned] at found
  cases found
  have again := splitFraction_again noFurther
  have ends := noFurther.endsDigits (head?_dropWhile isDigit (digit :: rest))
  obtain ⟨taken, left⟩ :=
    takeWhile_digits_append
      (fun _ => @isDigit_of_mem_takeWhile (digit :: rest) _) ends
  have whole :
      (digit :: rest).takeWhile isDigit =
        digit :: rest.takeWhile isDigit := by
    rw [List.takeWhile_cons, if_pos isFirst]
  generalize (splitFraction ((digit :: rest).dropWhile isDigit)).1 = fraction
    at again ends taken left
  generalize (digit :: rest).takeWhile isDigit = digits at taken left whole
  subst whole
  refine ⟨rest.takeWhile isDigit ++
    ((if fraction = [] then [] else ['.']) ++ fraction), rfl, ?_⟩
  obtain ⟨_, scannedAgain⟩ :=
    @scanNumber_of_digit negative
      (digit :: rest.takeWhile isDigit ++
        ((if fraction = [] then [] else ['.']) ++ fraction ++ other)) isFirst
  rw [taken, left, again] at scannedAgain
  simpa using scannedAgain

/-- A word is scanned again in front of what goes on no further. -/
theorem scan_word_again
    {c : Char}
    {rest other : List Char}
    (starts : startsWord c = true)
    (noFurther :
      NoFurther other ((c :: rest).dropWhile continuesWord)) :
    ∃ tail,
      (c :: rest).takeWhile continuesWord = c :: tail ∧
        scan c (tail ++ other) =
          .ok ⟨.ofWord (String.ofList (c :: tail)), c :: tail, other⟩ := by
  have ends : other.head?.any continuesWord = false :=
    head?_of_dropWhile noFurther.word
  refine ⟨rest.takeWhile continuesWord, ?_, ?_⟩
  · rw [List.takeWhile_cons, if_pos (continuesWord_of_startsWord starts)]
  · exact scan_word starts (List.all_eq_true.1 List.all_takeWhile) ends

/-- What was scanned is scanned again in front of what goes on no further. -/
theorem scan_again
    {c : Char}
    {rest other : List Char}
    {lexeme : Lexeme}
    (found : scan c rest = .ok lexeme)
    (noFurther : NoFurther other lexeme.rest) :
    ∃ tail,
      lexeme.spelling = c :: tail ∧
        scan c (tail ++ other) = .ok { lexeme with rest := other } := by
  rcases scan_cases found with
    ⟨token, punctuation, rfl⟩ |
      ⟨content, spelling, after, isQuote, closed, rfl⟩ |
      ⟨rfl, digit, signed⟩ | ⟨digit, unsigned⟩ | ⟨starts, rfl⟩
  · exact ⟨[], rfl, by simp [scan, punctuation]⟩
  · obtain ⟨body, rfl, inside⟩ := exists_isQuotedBody closed
    have again := closeString?_of_isQuotedBody isQuote inside other
    refine ⟨body ++ [c], rfl, ?_⟩
    rw [List.append_assoc, List.singleton_append]
    rcases isQuote with rfl | rfl <;>
      simp [scan, Token.ofPunctuation?, again]
  · obtain ⟨first, more, rfl⟩ : ∃ first more, rest = first :: more := by
      cases rest with
      | nil => cases digit
      | cons first more => exact ⟨first, more, rfl⟩
    obtain ⟨tail, spelled, again⟩ :=
      scanNumber_again true digit signed noFurther
    refine ⟨first :: tail, spelled, ?_⟩
    rw [scan_minus, if_pos]
    · exact again
    · exact digit
  · obtain ⟨tail, spelled, again⟩ :=
      scanNumber_again false digit unsigned noFurther
    refine ⟨tail, spelled, ?_⟩
    rw [scan_digit digit]
    exact again
  · obtain ⟨tail, spelled, again⟩ := scan_word_again starts noFurther
    refine ⟨tail, spelled, ?_⟩
    rw [again, spelled]

/-- What closes a lexeme lets none go on. -/
theorem noFurther_of_closes
    {text : List Char}
    (closes : Tokens.closes text = true)
    (other : List Char) :
    NoFurther text other := by
  obtain ⟨endsWord, endsNumber⟩ := Tokens.ends_of_closes closes
  cases text with
  | nil => exact ⟨by simp, by simp, by simp [splitFraction]⟩
  | cons c rest =>
      have noNumber : continuesNumber c = false := endsNumber
      rw [continuesNumber, Bool.or_eq_false_iff] at noNumber
      refine ⟨?_, ?_, ?_⟩
      · intro goesOn
        rw [endsWord] at goesOn
        cases goesOn
      · intro goesOn
        have digit : isDigit c = true := goesOn
        rw [noNumber.1] at digit
        cases digit
      · intro fraction
        obtain ⟨behind, shape, _⟩ := exists_point fraction
        cases shape
        exact absurd noNumber.2 (by simp)

/-- Behind a common beginning, too, a text that closes lets no lexeme go on. -/
theorem NoFurther.append
    {text other : List Char}
    (closes : Tokens.closes text = true)
    (middle : List Char) :
    NoFurther (middle ++ text) (middle ++ other) := by
  match middle with
  | [] => exact noFurther_of_closes closes other
  | [c] =>
      refine ⟨id, id, ?_⟩
      intro fraction
      obtain ⟨behind, shape, digit⟩ := exists_point fraction
      cases shape
      have noDigit := (noFurther_of_closes closes []).digits digit
      cases noDigit
  | c :: d :: rest =>
      refine ⟨id, id, ?_⟩
      intro fraction
      obtain ⟨behind, shape, digit⟩ := exists_point fraction
      cases shape
      have first : isDigit d = true := digit
      have starts : (d :: rest ++ other).head?.any isDigit = true := digit
      rw [List.cons_append, splitFraction_point starts]
      simp [first]

end Lexeme

/-- No lexeme goes on with a blank. -/
theorem closes_of_isBlank
    {c : Char}
    (blank : isBlank c = true)
    (rest : List Char) :
    Tokens.closes (c :: rest) = true := by
  have hidden (above : 32 < c.toNat) (below : c.toNat < 127) : False := by
    rw [isBlank_eq_false above below] at blank
    cases blank
  have noDigit : isDigit c = false := by
    rw [← Bool.not_eq_true]
    intro digit
    have range := toNat_of_isDigit digit
    exact hidden (by omega) (by omega)
  have noLetter : startsWord c = false := by
    rw [← Bool.not_eq_true]
    intro starts
    have range := toNat_of_startsWord starts
    exact hidden (by omega) (by omega)
  have noPoint : c ≠ '.' := by
    rintro rfl
    exact hidden (by decide) (by decide)
  have noWord : continuesWord c = (startsWord c || isDigit c) := by
    simp only [continuesWord, startsWord, Char.isAlphanum, Bool.or_assoc]
    rw [Bool.or_comm (c == '_')]
    rfl
  simp [Tokens.closes, Lexeme.continuesNumber, noWord, noLetter, noDigit,
    noPoint]

/-- No lexeme goes on with closed trivia. -/
theorem IsClosedTrivia.closes
    {between : List Char}
    (closed : IsClosedTrivia between)
    (some : between ≠ [])
    (rest : List Char) :
    Tokens.closes (between ++ rest) = true := by
  cases closed with
  | nil => exact absurd rfl some
  | blank blank more => exact closes_of_isBlank blank _
  | comment oneLine more => rfl

/-- Behind a beginning closed trivia let no lexeme go on. -/
theorem IsClosedTrivia.noFurther
    {between : List Char}
    (closed : IsClosedTrivia between)
    (middle rest : List Char) :
    Lexeme.NoFurther (middle ++ (between ++ rest)) (middle ++ rest) := by
  by_cases none : between = []
  · subst none
    exact .refl _
  · exact .append (closed.closes none rest) middle

namespace Tokens

/-- Trivia that end in front of something are skipped in front of anything. -/
theorem kinds?_behind
    {trivia left : List Char}
    (remains : left ≠ [])
    (skipped : LongestPrefix IsTrivia trivia left)
    (other : List Char) :
    kinds? (trivia ++ other) = kinds? other := by
  obtain ⟨taken, body⟩ := splitTrivia_of_longestPrefix skipped
  exact kinds?_congr
    (splitTrivia_behind remains (Prod.ext taken body) other)

/-- Closed trivia do not count where a cutting stops. -/
theorem kinds?_insert
    {position place : Position}
    {text front between left : List Char}
    {taken : List Located}
    (cut : Cut position text taken place left)
    (shape : text = front ++ left)
    (closed : IsClosedTrivia between) :
    kinds? (front ++ (between ++ left)) = kinds? text := by
  induction cut generalizing front with
  | @stop position trivia left skipped =>
      obtain rfl : trivia = front := List.append_cancel_right shape
      by_cases none : left = []
      · subst none
        have blanks := skipped.belongs.append closed.isTrivia
        rw [List.append_nil, List.append_nil]
        exact kinds?_congr
          ((splitTrivia_of_isTrivia blanks).trans
            (splitTrivia_of_isTrivia skipped.belongs).symm)
      · rw [kinds?_behind none skipped, kinds?_behind none skipped]
        exact kinds?_congr (splitTrivia_closed closed left)
  | @lexeme position last trivia spelling rest left token tokens skipped
      longest decoded more inductionHypothesis =>
      obtain ⟨middle, rfl, _⟩ := more.exists_front
      obtain rfl : trivia ++ (spelling ++ middle) = front := by
        have ends : trivia ++ (spelling ++ middle) ++ left = front ++ left := by
          rw [← shape]
          simp
        exact List.append_cancel_right ends
      have remains : spelling ++ (middle ++ left) ≠ [] := by
        simp [decoded.ne_nil]
      obtain ⟨c, tail, rfl, scanned⟩ :=
        Lexeme.scan_of_longestPrefix longest decoded
      obtain ⟨tailAgain, same, scannedAgain⟩ :=
        Lexeme.scan_again scanned (closed.noFurther middle left)
      cases same
      have inserted := kinds?_lexeme scannedAgain
      rw [inductionHypothesis rfl] at inserted
      have before := kinds?_lexeme scanned
      have cutting := kinds?_behind remains skipped
      simp only [List.append_assoc, List.cons_append] at *
      rw [cutting, cutting, inserted, before]

/-- The tokens that a text has are its kinds and the end of input. -/
theorem map_token_of_ofSource
    {source : String}
    {tokens : List Located}
    (read : ofSource source = .ok tokens) :
    tokens.map Located.token = Chain.body tokens ++ [.endOfInput] := by
  obtain ⟨taken, last, cut, rfl⟩ := exists_cut_of_ofSource read
  rw [Chain.body_of_cut cut]
  simp

/-- The kinds of a source text are those of its tokens, if it has any. -/
theorem kinds?_toList (source : String) :
    kinds? source.toList = (ofSource source).toOption.map Chain.body :=
  rfl

/-- Texts of the same kinds are read as the same tokens, places apart. -/
theorem exists_ofSource_of_kinds?
    {source other : String}
    {tokens : List Located}
    (read : ofSource source = .ok tokens)
    (same : kinds? other.toList = kinds? source.toList) :
    ∃ others,
      ofSource other = .ok others ∧
        others.map Located.token = tokens.map Located.token := by
  rw [kinds?_toList, kinds?_toList, read] at same
  cases found : ofSource other with
  | error error =>
      rw [found] at same
      cases same
  | ok others =>
      rw [found] at same
      refine ⟨others, rfl, ?_⟩
      rw [map_token_of_ofSource found, map_token_of_ofSource read,
        Option.some.inj same]

/--
A text is cut where one of its tokens has the place behind what is in front of
the cut, and at its end.
-/
private theorem exists_cut_of_place
    {first second : List Char}
    {source : String}
    {tokens : List Located}
    (shape : source.toList = first ++ second)
    (read : ofSource source = .ok tokens)
    (boundary :
      second = [] ∨
        ∃ located ∈ tokens, located.position = .behind first) :
    ∃ taken place, Cut .start source.toList taken place second := by
  obtain ⟨taken, last, cut, rfl⟩ := exists_cut_of_ofSource read
  rcases boundary with rfl | ⟨located, member, place⟩
  · exact ⟨taken, last, cut⟩
  · -- The place tells which beginning of the text is in front of the token.
    have stops {earlier : List Located} {rest : List Char}
        (before : Cut .start source.toList earlier located.position rest) :
        rest = second := by
      obtain ⟨front, shapeThere, placeThere⟩ := before.exists_behind
      have same : front = first :=
        Position.behind_injective ⟨rest, shapeThere.symm⟩
          ⟨second, shape.symm⟩ (placeThere.symm.trans place)
      rw [shapeThere, same] at shape
      exact List.append_cancel_left shape
    rcases List.mem_append.1 member with inTaken | isEnd
    · obtain ⟨earlier, spelling, rest, before, _, _⟩ :=
        cut.exists_lexeme inTaken
      exact ⟨earlier, located.position, stops before ▸ before⟩
    · rw [List.mem_singleton] at isEnd
      subst isEnd
      exact ⟨taken, last, stops cut ▸ cut⟩

end Tokens

/-- Why a program was rejected, apart from where. -/
def ParseError.cause (error : ParseError) : ParseErrorKind × String :=
  (error.kind, error.text)

namespace Chain

/-- Where tokens stand shows in the place of an error and nowhere else. -/
theorem ofLocated_congr
    {tokens others : List Located}
    (same : tokens.map Located.token = others.map Located.token) :
    (ofLocated tokens).mapError ParseError.cause =
      (ofLocated others).mapError ParseError.cause := by
  have bodies : body tokens = body others := by
    unfold body
    rw [same]
  have lengths : tokens.length = others.length := by
    simpa using congrArg List.length same
  have offenders (index : Nat) :
      (tokens[index]?.getD ⟨.endOfInput, .start⟩).token =
        (others[index]?.getD ⟨.endOfInput, .start⟩).token := by
    have there := congrArg (·[index]?) same
    simp only [List.getElem?_map] at there
    cases left : tokens[index]? <;> cases right : others[index]? <;>
      simp_all
  unfold ofLocated
  rw [bodies, lengths]
  cases ofTokens (body others) with
  | ok chain => rfl
  | error refusal =>
      refine congrArg Except.error ?_
      simp only [ParseError.cause, refusalAt, offenders]

/--
Closed trivia may be put in front of any token of a program and behind the last
one: it has the same tokens in the same order, and is read as the same chain or
rejected at the same stage with the same text.
-/
theorem ofSource_insert_trivia
    {first second between : String}
    {tokens : List Located}
    (read : Tokens.ofSource (first ++ second) = .ok tokens)
    (boundary :
      second = "" ∨
        ∃ located ∈ tokens, located.position = .behind first.toList)
    (closed : IsClosedTrivia between.toList) :
    (∃ others,
        Tokens.ofSource (first ++ between ++ second) = .ok others ∧
          others.map Located.token = tokens.map Located.token) ∧
      (ofSource (first ++ between ++ second)).mapError ParseError.cause =
        (ofSource (first ++ second)).mapError ParseError.cause := by
  have shape : (first ++ second).toList = first.toList ++ second.toList :=
    String.toList_append
  obtain ⟨taken, place, cut⟩ :=
    Tokens.exists_cut_of_place shape read
      (boundary.imp_left fun none => by simp [none])
  have kinds := Tokens.kinds?_insert cut shape closed
  have inserted :
      (first ++ between ++ second).toList =
        first.toList ++ (between.toList ++ second.toList) := by
    simp
  rw [← inserted] at kinds
  obtain ⟨others, readInserted, same⟩ :=
    Tokens.exists_ofSource_of_kinds? read kinds
  refine ⟨⟨others, readInserted, same⟩, ?_⟩
  simp only [ofSource, readInserted, read]
  exact ofLocated_congr same

/--
In `f(x='//').g()` a comment, a tabulator and a wide blank are put in front of
the equals sign; the slashes inside the string are no comment.
-/
theorem ofSource_insert_trivia_named :
    let first := "f(x"
    let second := "='//').g()"
    let between := "// x = 1.5\n\t\u3000"
    let tokens : List Located :=
      [⟨.identifier "f", ⟨1, 1⟩⟩, ⟨.leftParen, ⟨1, 2⟩⟩,
        ⟨.identifier "x", ⟨1, 3⟩⟩, ⟨.equals, ⟨1, 4⟩⟩,
        ⟨.string "//", ⟨1, 5⟩⟩, ⟨.rightParen, ⟨1, 9⟩⟩, ⟨.dot, ⟨1, 10⟩⟩,
        ⟨.identifier "g", ⟨1, 11⟩⟩, ⟨.leftParen, ⟨1, 12⟩⟩,
        ⟨.rightParen, ⟨1, 13⟩⟩, ⟨.endOfInput, ⟨1, 14⟩⟩]
    Tokens.ofSource (first ++ second) = .ok tokens ∧
      (∃ located ∈ tokens, located.position = .behind first.toList) ∧
      IsClosedTrivia between.toList ∧
      (∃ others,
        Tokens.ofSource (first ++ between ++ second) = .ok others ∧
          others.map Located.token = tokens.map Located.token) ∧
      (ofSource (first ++ between ++ second)).mapError ParseError.cause =
        (ofSource (first ++ second)).mapError ParseError.cause := by
  intro first second between tokens
  have read : Tokens.ofSource (first ++ second) = .ok tokens := by
    decide +kernel
  have boundary :
      ∃ located ∈ tokens, located.position = .behind first.toList :=
    ⟨⟨.equals, ⟨1, 4⟩⟩, by simp [tokens], by decide⟩
  have spelled :
      between.toList =
        '/' :: '/' :: (" x = 1.5".toList ++ ['\n', '\t', '\u3000']) := by
    decide
  have closed : IsClosedTrivia between.toList := by
    rw [spelled]
    exact .comment (by decide)
      (.blank (by decide) (.blank (by decide) .nil))
  exact ⟨read, boundary, closed,
    ofSource_insert_trivia read (.inr boundary) closed⟩

end Chain

end VerbChain
