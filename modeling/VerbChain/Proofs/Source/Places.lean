import VerbChain.Proofs.Source.Literals

namespace VerbChain

/-!
# The places of tokens

Reading a text counts lines and columns on, character by character.  What it
counts is known without reading: the place behind a text has one line more than
the text has line feeds, and one column more than there are characters behind
the last of them.  So every place that a cutting goes through is that of the
text in front of it, whatever was in that text, and a lexeme that is taken
brings the next place forward.
-/

namespace Position

/--
The place behind a text: a line for every line feed, a column for every
character behind the last one.
-/
def behind (front : List Char) : Position :=
  ⟨1 + front.count '\n', 1 + (front.reverse.takeWhile (· != '\n')).length⟩

/-- Whether a place comes earlier, by lines and within a line by columns. -/
def Before (first second : Position) : Prop :=
  first.line < second.line ∨
    first.line = second.line ∧ first.column < second.column

theorem behind_nil :
    behind [] = start :=
  rfl

/-- One more character takes the place one step on. -/
theorem behind_concat (front : List Char) (c : Char) :
    behind (front ++ [c]) = (behind front).step c := by
  by_cases lineFeed : c = '\n'
  · subst lineFeed
    simp [behind, step, Nat.add_assoc]
  · have inLine : (c != '\n') = true := bne_iff_ne.2 lineFeed
    have noLine : ¬(c == '\n') = true := by simpa using lineFeed
    simp [behind, step, lineFeed, inLine, List.count_append, Nat.add_assoc]

/-- The place behind a text and more is reached from the place behind it. -/
theorem after_behind (front text : List Char) :
    (behind front).after text = behind (front ++ text) := by
  induction text generalizing front with
  | nil => rw [after_nil, List.append_nil]
  | cons c rest inductionHypothesis =>
      rw [after_cons, ← behind_concat, inductionHypothesis, List.append_assoc,
        List.singleton_append]

theorem after_start (text : List Char) :
    start.after text = behind text := by
  rw [← behind_nil, after_behind, List.nil_append]

theorem Before.trans
    {first second third : Position}
    (earlier : first.Before second)
    (later : second.Before third) :
    first.Before third := by
  unfold Before at *
  omega

theorem Before.irrefl (position : Position) :
    ¬position.Before position := by
  unfold Before
  omega

/-- One character brings a place forward. -/
private theorem before_step (position : Position) (c : Char) :
    position.Before (position.step c) := by
  unfold Before step
  split
  · exact .inl (Nat.lt_succ_self _)
  · exact .inr ⟨rfl, Nat.lt_succ_self _⟩

/-- A text that is not empty brings a place forward. -/
theorem before_after
    (position : Position)
    {text : List Char}
    (some : text ≠ []) :
    position.Before (position.after text) := by
  induction text generalizing position with
  | nil => exact absurd rfl some
  | cons c rest inductionHypothesis =>
      rw [after_cons]
      have step := before_step position c
      cases rest with
      | nil => exact step
      | cons d others => exact step.trans (inductionHypothesis _ (by simp))

/-- A text brings a place forward or is empty. -/
theorem eq_or_before_after (position : Position) (text : List Char) :
    position.after text = position ∨
      position.Before (position.after text) := by
  by_cases none : text = []
  · exact .inl (by rw [none, after_nil])
  · exact .inr (position.before_after none)

/-- The beginnings of one text are told apart by the places behind them. -/
theorem behind_injective
    {front other text : List Char}
    (frontBegins : front <+: text)
    (otherBegins : other <+: text)
    (same : behind front = behind other) :
    front = other := by
  have equal_of_begins {short long : List Char}
      (begins : short <+: long) (places : behind short = behind long) :
      short = long := by
    obtain ⟨more, rfl⟩ := begins
    by_cases none : more = []
    · rw [none, List.append_nil]
    · have forward := before_after (behind short) none
      rw [after_behind, ← places] at forward
      exact absurd forward (Before.irrefl _)
  rcases List.prefix_or_prefix_of_prefix frontBegins otherBegins with
    shorter | longer
  · exact equal_of_begins shorter same
  · exact (equal_of_begins longer same.symm).symm

end Position

theorem IsLexeme.ne_nil
    {spelling : List Char}
    {token : Token}
    (lexical : IsLexeme spelling token) :
    spelling ≠ [] := by
  obtain ⟨c, tail, _, rfl, _⟩ := Lexeme.scan_covers lexical []
  simp

namespace Cut

variable {position last : Position} {text left : List Char}
  {tokens : List Located}

/-- A cutting uses up a text from its front and counts what it uses up. -/
theorem exists_front
    (cut : Cut position text tokens last left) :
    ∃ front, text = front ++ left ∧ last = position.after front := by
  induction cut with
  | stop skipped => exact ⟨_, rfl, rfl⟩
  | @lexeme position _ trivia spelling _ _ _ _ _ _ _ _ inductionHypothesis =>
      obtain ⟨front, rfl, rfl⟩ := inductionHypothesis
      refine ⟨trivia ++ (spelling ++ front), by simp, ?_⟩
      rw [Position.after_append, Position.after_append]

/-- Where a cutting from the start of a text stops is told by what it used up. -/
theorem exists_behind
    (cut : Cut .start text tokens last left) :
    ∃ front, text = front ++ left ∧ last = .behind front := by
  obtain ⟨front, shape, counted⟩ := cut.exists_front
  exact ⟨front, shape, by rw [counted, Position.after_start]⟩

/-- The places of the tokens and of the end come one before the other. -/
theorem increasing
    (cut : Cut position text tokens last left) :
    let places := tokens.map Located.position ++ [last]
    places.Pairwise Position.Before ∧
      ∀ place ∈ places, place = position ∨ position.Before place := by
  intro places
  induction cut with
  | @stop position trivia left skipped =>
      refine ⟨List.pairwise_singleton _ _, ?_⟩
      intro place member
      rw [List.mem_singleton.1 member]
      exact position.eq_or_before_after trivia
  | @lexeme position last trivia _ _ _ _ tokens _ _ decoded more
      inductionHypothesis =>
      obtain ⟨ordered, behind⟩ := inductionHypothesis
      -- Trivia may be empty, the lexeme behind them is not.
      have forward := (position.after trivia).before_after decoded.ne_nil
      have later :
          ∀ place ∈ tokens.map Located.position ++ [last],
            (position.after trivia).Before place := by
        intro place member
        rcases behind place member with rfl | further
        · exact forward
        · exact forward.trans further
      refine ⟨List.pairwise_cons.2 ⟨later, ordered⟩, ?_⟩
      intro place member
      have reached := position.eq_or_before_after trivia
      rcases List.mem_cons.1 member with rfl | inRest
      · exact reached
      · rcases reached with same | further
        · exact .inr (same ▸ later place inRest)
        · exact .inr (further.trans (later place inRest))

end Cut

namespace Tokens

/--
A text's tokens, the end of input included, and the fault that its reading ends
with have the place of their first character, counted in the text in front of
it: what the tokens before take up and the trivia between them.  The places of
the tokens come one before the other.
-/
theorem ofSource_places (source : String) :
    match ofSource source with
    | .ok tokens =>
        (tokens.Pairwise fun first second =>
            first.position.Before second.position) ∧
          ∀ taken located later,
            tokens = taken ++ located :: later →
              ∃ front rest,
                source.toList = front ++ rest ∧
                  located.position = .behind front ∧
                  Cut .start source.toList taken located.position rest ∧
                  (located.token = .endOfInput ∧ later = [] ∧ rest = [] ∨
                    ∃ spelling more,
                      rest = spelling ++ more ∧
                        LongestPrefix IsSpelling spelling more ∧
                        IsLexeme spelling located.token)
    | .error error =>
        ∃ taken front c rest,
          source.toList = front ++ c :: rest ∧
            error = ⟨.lexical, (LexFault.startingAt c).text, .behind front⟩ ∧
            Cut .start source.toList taken error.position (c :: rest) ∧
            ¬LexemeStarts (c :: rest) := by
  obtain ⟨taken, last, left, cut, noLexeme⟩ :=
    exists_cut .start source.toList
  have read : ofSource source = stopping taken last left :=
    ofText_of_cut cut noLexeme
  obtain ⟨front, shape, place⟩ := cut.exists_behind
  rw [read]
  cases left with
  | cons c rest =>
      exact ⟨taken, front, c, rest, shape, by rw [place], cut, noLexeme⟩
  | nil =>
      refine ⟨?_, ?_⟩
      · have ordered := cut.increasing.1
        have places :
            taken.map Located.position ++ [last] =
              (taken ++ [(⟨.endOfInput, last⟩ : Located)]).map
                Located.position := by
          simp
        rw [places] at ordered
        exact List.pairwise_map.1 ordered
      · intro earlier located later split
        rcases List.eq_nil_or_concat later with rfl | ⟨between, final, rfl⟩
        · obtain ⟨rfl, ends⟩ := List.append_inj' split rfl
          cases ends
          exact ⟨front, [], shape, place, cut, .inl ⟨rfl, rfl, rfl⟩⟩
        · have shorter : taken = earlier ++ located :: between := by
            have whole :
                taken ++ [⟨.endOfInput, last⟩] =
                  (earlier ++ located :: between) ++ [final] := by
              simpa using split
            exact (List.append_inj' whole rfl).1
          obtain ⟨spelling, more, before, longest, lexical, _⟩ :=
            cut.exists_split shorter
          obtain ⟨passed, shapeThere, placeThere⟩ := before.exists_behind
          exact ⟨passed, spelling ++ more, shapeThere, placeThere, before,
            .inr ⟨spelling, more, rfl, longest, lexical⟩⟩

/-- A line feed inside a string counts, and so does one behind a backslash. -/
example :
    ofSource "//\r\n'é\n\\\n' x" =
      .ok [⟨.string "é\n\n", ⟨2, 1⟩⟩, ⟨.identifier "x", ⟨4, 3⟩⟩,
        ⟨.endOfInput, ⟨4, 4⟩⟩] := by
  cbv

end Tokens

end VerbChain
