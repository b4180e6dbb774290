import VerbChain.Yaml.Character
import VerbChain.Yaml.Resolution

namespace VerbChain

/-!
# How a text is written in YAML

A text is written without quotes when it then reads as itself, in single quotes
when only its reading is at stake, as a literal block when it has several
lines, and in double quotes with escapes when nothing else can hold it.
-/

/-- The ways to write a text. -/
inductive Quoting where
  | plain
  | single
  | double
  | literal
  deriving Repr, DecidableEq

namespace Quoting

open Yaml

/-- Whether some character is directly followed by another one. -/
def hasPair (first second : Char → Bool) : List Char → Bool
  | c :: d :: rest => (first c && second d) || hasPair first second (d :: rest)
  | _ => false

/-- Whether a text starts with a character of a kind. -/
def startsWith (kind : Char → Bool) : List Char → Bool
  | [] => false
  | c :: _ => kind c

/-- Whether a text is at its end or goes on with a gap. -/
def atGap : List Char → Bool
  | [] => true
  | c :: _ => isGap c

/-- Whether a text ends with a character of a kind. -/
def endsWith (kind : Char → Bool) (text : List Char) : Bool :=
  startsWith kind text.reverse

/-- Whether a character is the space. -/
def isSpace (c : Char) : Bool :=
  c == ' '

/-- Whether a text has a character that only an escape can show. -/
def isSpecial (text : List Char) : Bool :=
  text.any (fun c => !isPrintable c) || hasPair isSpace isBreak text

/-- Whether the first character means something else than itself. -/
def misleadsAtStart : List Char → Bool
  | [] => false
  | c :: rest =>
      "#,[]\x7b\x7d&*!|>'\"%@\x60".toList.contains c ||
        ("?:-".toList.contains c && atGap rest)

/-- Whether a later character means something else than itself. -/
def misleadsInside : List Char → Bool
  | c :: d :: rest =>
      (d == ':' && atGap rest) || (d == '#' && isGap c) ||
        misleadsInside (d :: rest)
  | _ => false

/-- Whether a text starts like a mark between documents. -/
def startsLikeMark (text : List Char) : Bool :=
  ['-', '-', '-'].isPrefixOf text || ['.', '.', '.'].isPrefixOf text

/-- Whether a text may stand without quotes, for all that marks mean. -/
def allowsPlain (text : List Char) : Bool :=
  !isSpecial text && !text.any isBreak &&
    !startsWith isSpace text && !endsWith isSpace text &&
    !startsLikeMark text && !misleadsAtStart text && !misleadsInside text

/-- Whether a text may stand between single quotes. -/
def allowsSingle (text : List Char) : Bool :=
  !isSpecial text && !hasPair isBreak isSpace text

/-- Whether a text may stand in a literal block. -/
def allowsLiteral (text : List Char) : Bool :=
  !isSpecial text && !endsWith isSpace text

/-- The way a text is written. -/
def ofText (text : String) : Quoting :=
  let characters := text.toList
  if characters.contains '\n' then
    if allowsLiteral characters then .literal else .double
  else if !PlainMeaning.isMisread text && allowsPlain characters then .plain
  else if allowsSingle characters then .single
  else .double

/-- Names that only other notations take for truth values stay plain. -/
example : ["yes", "off", "12:30", "a b", "-a", "a:b"].map ofText =
    List.replicate 6 .plain := by
  decide +kernel

/-- A text that would be read as something else is quoted. -/
example : ["", "~", "True", "0x1", "007", "- a", "a: b", "a ", "#"].map ofText =
    List.replicate 9 .single := by
  decide +kernel

/-- Lines make a literal block unless a character needs an escape. -/
example : ["a\nb", "a \nb", "a\tb"].map ofText =
    [.literal, .double, .double] := by
  decide +kernel

end Quoting

end VerbChain
