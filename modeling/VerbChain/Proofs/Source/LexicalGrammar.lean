import VerbChain.Source.ParseError
import VerbChain.Source.Lexeme

namespace VerbChain

/-!
# The lexical grammar

Which texts are lexemes, which token each of them stands for and which texts
are trivia, said without a scanner.  A text is cut from its front: the longest
trivia, then the longest lexeme, and so on up to a place where no trivia and no
lexeme is left to take.
-/

/-- The characters that are lexemes by themselves. -/
def punctuation : List (Char × Token) :=
  [('(', .leftParen), (')', .rightParen), (',', .comma), ('.', .dot),
    ('=', .equals), ('@', .at)]

/-- The letters that stand for another character behind a backslash. -/
def escapes : List (Char × Char) :=
  [('n', '\n'), ('t', '\t'), ('r', '\r')]

/--
What stands between two quotes, and the content that it is written for.  A
backslash takes the one character behind it, so that character ends nothing.
-/
inductive IsQuotedBody (quote : Char) : List Char → List Char → Prop where
  | nil : IsQuotedBody quote [] []
  | plain
      {c : Char}
      {body content : List Char}
      (noQuote : c ≠ quote)
      (noBackslash : c ≠ '\\')
      (more : IsQuotedBody quote body content) :
      IsQuotedBody quote (c :: body) (c :: content)
  | escaped
      (c : Char)
      {body content : List Char}
      (more : IsQuotedBody quote body content) :
      IsQuotedBody quote ('\\' :: c :: body)
        ((escapes.lookup c).getD c :: content)

/-- The numerals, their signs and the decimals they are written for. -/
inductive IsNumeral : List Char → Bool → Decimal → Prop where
  | parts
      (negative : Bool)
      {whole fraction : List Char}
      (some : whole ≠ [])
      (wholeDigits : ∀ c ∈ whole, isDigit c = true)
      (fractionDigits : ∀ c ∈ fraction, isDigit c = true) :
      IsNumeral
        ((if negative then ['-'] else []) ++
          (whole ++ ((if fraction = [] then [] else ['.']) ++ fraction)))
        negative (.ofParts whole fraction)

/-- The lexemes and the tokens they stand for. -/
inductive IsLexeme : List Char → Token → Prop where
  | punctuation
      {c : Char}
      {token : Token}
      (listed : (c, token) ∈ punctuation) :
      IsLexeme [c] token
  | number
      {spelling : List Char}
      {negative : Bool}
      {decimal : Decimal}
      (numeral : IsNumeral spelling negative decimal) :
      IsLexeme spelling (.number (.ofDecimal negative decimal))
  | identifier
      {c : Char}
      {others : List Char}
      (starts : startsWord c = true)
      (continues : ∀ d ∈ others, continuesWord d = true)
      (noTrue : c :: others ≠ "true".toList)
      (noFalse : c :: others ≠ "false".toList) :
      IsLexeme (c :: others) (.identifier (String.ofList (c :: others)))
  | bool (value : Bool) :
      IsLexeme (if value then "true" else "false").toList (.bool value)
  | string
      {quote : Char}
      {body content : List Char}
      (isQuote : quote = '"' ∨ quote = '\'')
      (inside : IsQuotedBody quote body content) :
      IsLexeme (quote :: (body ++ [quote])) (.string (String.ofList content))

/-- The spellings of lexemes. -/
def IsSpelling (spelling : List Char) : Prop :=
  ∃ token, IsLexeme spelling token

/-- Blanks and comments; a comment goes up to a line feed. -/
inductive IsTrivia : List Char → Prop where
  | nil : IsTrivia []
  | blank
      {c : Char}
      {rest : List Char}
      (blank : isBlank c = true)
      (more : IsTrivia rest) :
      IsTrivia (c :: rest)
  | comment
      {body rest : List Char}
      (oneLine : '\n' ∉ body)
      (more : IsTrivia rest) :
      IsTrivia ('/' :: '/' :: (body ++ rest))

/-- What is taken off a text is in a class, and no longer part of it is. -/
structure LongestPrefix (inClass : List Char → Prop)
    (taken rest : List Char) : Prop where
  belongs : inClass taken
  longest :
    ∀ other, inClass other → other <+: taken ++ rest →
      other.length ≤ taken.length

/-- Some lexeme stands at the front of a text. -/
def LexemeStarts (text : List Char) : Prop :=
  ∃ spelling token, IsLexeme spelling token ∧ spelling <+: text

/--
A text is cut from a place on: the tokens that are taken off, the place where
the cutting stops behind trivia, and what is left there.
-/
inductive Cut :
    Position → List Char → List Located → Position → List Char → Prop where
  | stop
      {position : Position}
      {trivia left : List Char}
      (skipped : LongestPrefix IsTrivia trivia left) :
      Cut position (trivia ++ left) [] (position.after trivia) left
  | lexeme
      {position last : Position}
      {trivia spelling rest left : List Char}
      {token : Token}
      {tokens : List Located}
      (skipped : LongestPrefix IsTrivia trivia (spelling ++ rest))
      (longest : LongestPrefix IsSpelling spelling rest)
      (decoded : IsLexeme spelling token)
      (more :
        Cut ((position.after trivia).after spelling) rest tokens last left) :
      Cut position (trivia ++ (spelling ++ rest))
        (⟨token, position.after trivia⟩ :: tokens) last left

/-- Why no lexeme starts with a character, where none does. -/
def LexFault.startingAt (c : Char) : LexFault :=
  if c = '"' ∨ c = '\'' then .unclosedString
  else if c = '-' then .strayMinus
  else .unexpected c

/-- A text has one longest prefix in a class. -/
theorem LongestPrefix.unique
    {inClass : List Char → Prop}
    {taken rest other left : List Char}
    (first : LongestPrefix inClass taken rest)
    (second : LongestPrefix inClass other left)
    (same : taken ++ rest = other ++ left) :
    taken = other ∧ rest = left := by
  have takenShort : taken.length ≤ other.length :=
    second.longest taken first.belongs ⟨rest, same⟩
  have otherShort : other.length ≤ taken.length :=
    first.longest other second.belongs ⟨left, same.symm⟩
  exact List.append_inj same (Nat.le_antisymm takenShort otherShort)

end VerbChain
