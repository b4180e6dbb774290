import VerbChain.Number.Numeral
import VerbChain.Source.Token
import VerbChain.Text.Blank

namespace VerbChain

/-!
# Lexemes

What one token is spelled with.  `splitTrivia` takes blanks and comments off
the front of a text and `Lexeme.scan` takes the one lexeme that the text then
starts with.  Neither loses a character: what is taken and what is left make
up the text again, and a lexeme is never empty.
-/

/--
Split the leading blanks and `//` comments off a text.  The flag tells whether
the text starts inside a comment, which ends before a line feed.
-/
def splitTrivia : Bool → List Char → List Char × List Char
  | _, [] => ([], [])
  | inComment, c :: rest =>
      if (inComment && c != '\n') || isBlank c then
        let (trivia, body) := splitTrivia (inComment && c != '\n') rest
        (c :: trivia, body)
      else if c = '/' ∧ rest.head? = some '/' then
        let (trivia, body) := splitTrivia true rest
        (c :: trivia, body)
      else ([], c :: rest)

/-- Trivia and what follows it make up the text. -/
theorem splitTrivia_append (inComment : Bool) (text : List Char) :
    (splitTrivia inComment text).1 ++ (splitTrivia inComment text).2 =
      text := by
  induction text generalizing inComment with
  | nil => cases inComment <;> rfl
  | cons c rest hypothesis =>
      unfold splitTrivia
      split
      · simp [hypothesis]
      · split
        · simp [hypothesis]
        · rfl

/-- Why no lexeme starts at a place. -/
inductive LexFault where
  | unclosedString
  | strayMinus
  | invalidNumber (spelling : List Char)
  | unexpected (c : Char)
  deriving Repr, DecidableEq

/-- The message text of a lexical fault. -/
def LexFault.text : LexFault → String
  | .unclosedString => "unclosed string literal"
  | .strayMinus => "unexpected '-'"
  | .invalidNumber spelling => "invalid number: " ++ String.ofList spelling
  | .unexpected c => "unexpected character: '" ++ c.toString ++ "'"

/-- Whether a character can start a word. -/
def startsWord (c : Char) : Bool :=
  c.isAlpha || c == '_'

/-- Whether a character can continue a word. -/
def continuesWord (c : Char) : Bool :=
  c.isAlphanum || c == '_'

/-- What starts a word continues it. -/
theorem continuesWord_of_startsWord
    {c : Char}
    (starts : startsWord c = true) :
    continuesWord c = true := by
  simp only [startsWord, Bool.or_eq_true] at starts
  simp only [continuesWord, Char.isAlphanum, Bool.or_eq_true]
  exact starts.imp_left .inl

/-- A token, the characters that spell it and the characters after them. -/
structure Lexeme where
  token : Token
  spelling : List Char
  rest : List Char
  deriving Repr, DecidableEq

namespace Lexeme

/-- The character that a backslash in front of `c` stands for. -/
def unescape (c : Char) : Char :=
  if c = 'n' then '\n'
  else if c = 't' then '\t'
  else if c = 'r' then '\r'
  else c

/--
Read a string up to its closing quote: the decoded content, the spelling with
the quote, and the rest.  A backslash takes any one character after it.
-/
def closeString? (quote : Char) :
    List Char → Option (List Char × List Char × List Char)
  | [] => none
  | ['\\'] => none
  | '\\' :: escaped :: rest =>
      (closeString? quote rest).map fun (content, spelling, after) =>
        (unescape escaped :: content, '\\' :: escaped :: spelling, after)
  | c :: rest =>
      if c = quote then some ([], [c], rest)
      else
        (closeString? quote rest).map fun (content, spelling, after) =>
          (c :: content, c :: spelling, after)

/-- Split a fraction off the front: a point and one or more digits. -/
def splitFraction : List Char → List Char × List Char
  | '.' :: digit :: rest =>
      if isDigit digit then
        ((digit :: rest).takeWhile isDigit, (digit :: rest).dropWhile isDigit)
      else ([], '.' :: digit :: rest)
  | text => ([], text)

/--
Read a number that starts with a digit, behind a sign already taken.  What is
taken is read as a numeral.
-/
def scanNumber (sign : List Char) (text : List Char) :
    Except LexFault Lexeme :=
  let whole := text.takeWhile isDigit
  let (fraction, rest) := splitFraction (text.dropWhile isDigit)
  let point := if fraction = [] then [] else ['.']
  let spelling := sign ++ whole ++ point ++ fraction
  match Binary64.ofNumeral? spelling with
  | some value => .ok ⟨.number value, spelling, rest⟩
  | none => .error (.invalidNumber spelling)

/-- Read the one lexeme that a text starts with. -/
def scan (c : Char) (rest : List Char) : Except LexFault Lexeme :=
  match Token.ofPunctuation? c with
  | some token => .ok ⟨token, [c], rest⟩
  | none =>
      if c = '"' ∨ c = '\'' then
        match closeString? c rest with
        | some (content, spelling, after) =>
            .ok ⟨.string (String.ofList content), c :: spelling, after⟩
        | none => .error .unclosedString
      else if c = '-' then
        if rest.head?.any isDigit then scanNumber [c] rest
        else .error .strayMinus
      else if isDigit c then scanNumber [] (c :: rest)
      else if startsWord c then
        let word := (c :: rest).takeWhile continuesWord
        .ok ⟨.ofWord (String.ofList word), word,
          (c :: rest).dropWhile continuesWord⟩
      else .error (.unexpected c)

/-- A closed string and what follows it make up the text. -/
theorem closeString?_append
    {quote : Char}
    {text content spelling rest : List Char}
    (closed : closeString? quote text = some (content, spelling, rest)) :
    spelling ++ rest = text ∧ spelling ≠ [] := by
  fun_induction closeString? quote text generalizing content spelling rest with
  | case1 => simp at closed
  | case2 => simp at closed
  | case3 escaped tail hypothesis =>
      simp only [Option.map_eq_some_iff, Prod.exists, Prod.mk.injEq] at closed
      obtain ⟨inner, innerSpelling, after, found, rfl, rfl, rfl⟩ := closed
      simp [(hypothesis found).1]
  | case4 =>
      simp only [Option.some.injEq, Prod.mk.injEq] at closed
      obtain ⟨rfl, rfl, rfl⟩ := closed
      simp
  | case5 c tail _ _ _ hypothesis =>
      simp only [Option.map_eq_some_iff, Prod.exists, Prod.mk.injEq] at closed
      obtain ⟨inner, innerSpelling, after, found, rfl, rfl, rfl⟩ := closed
      simp [(hypothesis found).1]

/-- A point, a fraction and what follows it make up the text. -/
theorem splitFraction_append (text : List Char) :
    (if (splitFraction text).1 = [] then [] else ['.']) ++
        ((splitFraction text).1 ++ (splitFraction text).2) =
      text := by
  fun_cases splitFraction text <;> simp_all

/-- The spelling and the rest of a number, whatever number it is. -/
theorem exists_value_of_scanNumber
    {sign text : List Char}
    {lexeme : Lexeme}
    (found : scanNumber sign text = .ok lexeme) :
    ∃ value,
      lexeme =
        ⟨.number value,
          sign ++ text.takeWhile isDigit ++
            (if (splitFraction (text.dropWhile isDigit)).1 = [] then []
              else ['.']) ++
            (splitFraction (text.dropWhile isDigit)).1,
          (splitFraction (text.dropWhile isDigit)).2⟩ := by
  simp only [scanNumber] at found
  split at found
  · next value _ =>
      cases found
      exact ⟨value, rfl⟩
  · cases found

/-- A number's spelling and what follows it make up the text. -/
theorem scanNumber_append
    {sign text : List Char}
    {lexeme : Lexeme}
    (found : scanNumber sign text = .ok lexeme) :
    lexeme.spelling ++ lexeme.rest = sign ++ text := by
  obtain ⟨value, rfl⟩ := exists_value_of_scanNumber found
  have split := splitFraction_append (text.dropWhile isDigit)
  simp only [List.append_assoc]
  rw [split, List.takeWhile_append_dropWhile]

/-- A lexeme is punctuation, a string, a number with or without sign or a word. -/
theorem scan_cases
    {c : Char}
    {rest : List Char}
    {lexeme : Lexeme}
    (found : scan c rest = .ok lexeme) :
    (∃ token,
      Token.ofPunctuation? c = some token ∧ lexeme = ⟨token, [c], rest⟩) ∨
      (∃ content spelling after,
        (c = '"' ∨ c = '\'') ∧
          closeString? c rest = some (content, spelling, after) ∧
          lexeme = ⟨.string (String.ofList content), c :: spelling, after⟩) ∨
      (c = '-' ∧ rest.head?.any isDigit = true ∧
        scanNumber [c] rest = .ok lexeme) ∨
      (isDigit c = true ∧ scanNumber [] (c :: rest) = .ok lexeme) ∨
      (startsWord c = true ∧
        lexeme =
          ⟨.ofWord (String.ofList ((c :: rest).takeWhile continuesWord)),
            (c :: rest).takeWhile continuesWord,
            (c :: rest).dropWhile continuesWord⟩) := by
  unfold scan at found
  split at found
  · next token punctuation =>
      cases found
      exact .inl ⟨token, punctuation, rfl⟩
  · split at found
    · next isQuote =>
        split at found
        · next content spelling after closed =>
            cases found
            exact .inr
              (.inl ⟨content, spelling, after, isQuote, closed, rfl⟩)
        · cases found
    · split at found
      · next minus =>
          split at found
          · next digit => exact .inr (.inr (.inl ⟨minus, digit, found⟩))
          · cases found
      · split at found
        · next digit => exact .inr (.inr (.inr (.inl ⟨digit, found⟩)))
        · split at found <;> cases found
          next starts =>
            exact .inr (.inr (.inr (.inr ⟨starts, rfl⟩)))

/-- A lexeme and what follows it make up the text. -/
theorem scan_append
    {c : Char}
    {rest : List Char}
    {lexeme : Lexeme}
    (found : scan c rest = .ok lexeme) :
    lexeme.spelling ++ lexeme.rest = c :: rest := by
  rcases scan_cases found with
    ⟨token, _, rfl⟩ | ⟨content, spelling, after, _, closed, rfl⟩ |
      ⟨_, _, signed⟩ | ⟨_, unsigned⟩ | ⟨_, rfl⟩
  · rfl
  · simp [(closeString?_append closed).1]
  · exact scanNumber_append signed
  · exact scanNumber_append unsigned
  · exact List.takeWhile_append_dropWhile

/-- A number is spelled with one character at least. -/
theorem scanNumber_spelling_ne_nil
    {sign text : List Char}
    {lexeme : Lexeme}
    (found : scanNumber sign text = .ok lexeme)
    (starts : sign ≠ [] ∨ text.head?.any isDigit) :
    lexeme.spelling ≠ [] := by
  obtain ⟨value, rfl⟩ := exists_value_of_scanNumber found
  rcases starts with signed | digit
  · simp [signed]
  · cases text with
    | nil => simp at digit
    | cons c tail =>
        have isDigit_c : isDigit c = true := by simpa using digit
        simp [isDigit_c]

/-- A lexeme is never empty. -/
theorem scan_spelling_ne_nil
    {c : Char}
    {rest : List Char}
    {lexeme : Lexeme}
    (found : scan c rest = .ok lexeme) :
    lexeme.spelling ≠ [] := by
  rcases scan_cases found with
    ⟨token, _, rfl⟩ | ⟨content, spelling, after, _, _, rfl⟩ |
      ⟨_, _, signed⟩ | ⟨digit, unsigned⟩ | ⟨starts, rfl⟩
  · simp
  · simp
  · exact scanNumber_spelling_ne_nil signed (.inl (by simp))
  · exact scanNumber_spelling_ne_nil unsigned (.inr (by simp [digit]))
  · simp [continuesWord_of_startsWord starts]

/-- What follows a lexeme is shorter than the text it was taken from. -/
theorem scan_rest_length_lt
    {c : Char}
    {rest : List Char}
    {lexeme : Lexeme}
    (found : scan c rest = .ok lexeme) :
    lexeme.rest.length < (c :: rest).length := by
  rw [← scan_append found, List.length_append]
  have := List.length_pos_iff.2 (scan_spelling_ne_nil found)
  omega

end Lexeme

end VerbChain
