import VerbChain.Yaml.Character

namespace VerbChain

/-!
# YAML text with its places

What a YAML text says hangs on where its characters stand, so a text is read as
a list of characters that know their line and column, both counted from zero,
and how many bytes of UTF-8 come before them.  All ways to break a line but the
two separators of Unicode become line feeds.
-/

/-- A character of a YAML text and where it stands. -/
structure YamlChar where
  char : Char
  line : Nat
  column : Nat
  /-- The bytes in front of it. -/
  offset : Nat
  deriving Repr, DecidableEq

namespace YamlChar

/-- Whether a character ends a line. -/
def isBreak (here : YamlChar) : Bool :=
  Yaml.isBreak here.char

/-- Whether a character is a space or a tab. -/
def isBlank (here : YamlChar) : Bool :=
  Yaml.isBlank here.char

/-- Whether a character separates words. -/
def isGap (here : YamlChar) : Bool :=
  Yaml.isGap here.char

/-- A line break as it is kept in a text. -/
def keptBreak (c : Char) : Char :=
  if c = '\u2028' ∨ c = '\u2029' then c else '\n'

/-- The characters of a text from a place on. -/
def locate (line column offset : Nat) : List Char → List YamlChar
  | [] => []
  | '\r' :: '\n' :: rest =>
      ⟨'\n', line, column, offset⟩ :: locate (line + 1) 0 (offset + 2) rest
  | c :: rest =>
      let next := offset + c.utf8Size
      if Yaml.isBreak c then
        ⟨keptBreak c, line, column, offset⟩ :: locate (line + 1) 0 next rest
      else ⟨c, line, column, offset⟩ :: locate line (column + 1) next rest

/-- The characters of a text, when all of them may stand in one. -/
def ofText? (text : List Char) : Option (List YamlChar) :=
  if text.all Yaml.isAllowed then some (locate 0 0 0 text) else none

/-- The characters without their places. -/
def text (source : List YamlChar) : List Char :=
  source.map char

/-- Whether a text is at its end or goes on with a gap. -/
def atGap : List YamlChar → Bool
  | [] => true
  | here :: _ => here.isGap

/-- Whether a text is at its end or at the end of a line. -/
def atLineEnd : List YamlChar → Bool
  | [] => true
  | here :: _ => here.isBreak

/-- Whether a text goes on with one of some characters. -/
def atOneOf (choices : List Char) : List YamlChar → Bool
  | [] => false
  | here :: _ => choices.contains here.char

/-- Whether three equal characters stand here as a mark between documents. -/
def atMark (c : Char) : List YamlChar → Bool
  | first :: second :: third :: rest =>
      first.column == 0 && first.char == c && second.char == c &&
        third.char == c && atGap rest
  | _ => false

/-- Whether a mark between documents stands here. -/
def atDocumentMark (source : List YamlChar) : Bool :=
  atMark '-' source || atMark '.' source

/-- What follows the blanks at the front. -/
def skipBlanks (source : List YamlChar) : List YamlChar :=
  source.dropWhile isBlank

/-- What follows this line, its line break left. -/
def skipLine (source : List YamlChar) : List YamlChar :=
  source.dropWhile fun here => !here.isBreak

/--
What follows blanks and a comment, when they reach the end of the line; the
line break is left.
-/
def lineEnd? (source : List YamlChar) : Option (List YamlChar) :=
  let rest := skipBlanks source
  if atOneOf ['#'] rest then some (skipLine rest)
  else if atLineEnd rest then some rest
  else none

end YamlChar

end VerbChain
