import VerbChain.Yaml.Tag

namespace VerbChain

/-!
# YAML tokens

The parts a YAML text is made of.  Where a block collection starts and ends is
told by the margins of its lines and has tokens of its own.
-/

/-- A part of a YAML text. -/
inductive YamlToken where
  /-- The version a document is written in. -/
  | version (major minor : Nat)
  /-- A handle and what it stands for in tags. -/
  | handle (name : String) (meaning : YamlTag)
  | documentStart
  | documentEnd
  | listStart
  | tableStart
  | blockEnd
  | openBracket
  | closeBracket
  | openBrace
  | closeBrace
  | dash
  | comma
  | key
  | value
  | alias (name : String)
  | anchor (name : String)
  | tag (handle : String) (suffix : YamlTag)
  | scalar (style : YamlStyle) (content : String)
  deriving Repr, DecidableEq

namespace YamlToken

open YamlChar

/-- Take the name at the front of a text. -/
def takeName (source : List YamlChar) : List Char × List YamlChar :=
  let isName := fun here : YamlChar => Yaml.isNameCharacter here.char
  (text (source.takeWhile isName), source.dropWhile isName)

/-- The name of an anchor or an alias at the front of a text. -/
def anchorName? (source : List YamlChar) : Option (String × List YamlChar) :=
  let (name, rest) := takeName source
  if name ≠ [] ∧
      (atGap rest ∨
        atOneOf ['?', ':', ',', ']', '\x7d', '%', '@', '\x60'] rest) then
    some (String.ofList name, rest)
  else none

/-- Whether a character may stand in a tag without an escape. -/
def isTagCharacter (verbatim : Bool) (here : YamlChar) : Bool :=
  let c := here.char
  Yaml.isNameCharacter c || ";/?:@&=+$.%!~*'()".toList.contains c ||
    (verbatim && ",[]".toList.contains c)

/-- The bytes of a tag at the front of a text. -/
def tagBytes? (verbatim : Bool) (source : List YamlChar) :
    Option (List UInt8 × List YamlChar) :=
  (YamlTag.unescaped? 0 (text (source.takeWhile (isTagCharacter verbatim)))).map
    fun content => (content, source.dropWhile (isTagCharacter verbatim))

/-- A handle at the front of a text, its second mark perhaps missing. -/
def tagHandle? : List YamlChar → Option (List Char × List YamlChar)
  | [] => none
  | here :: rest =>
      if here.char = '!' then
        let (name, after) := takeName rest
        if atOneOf ['!'] after then
          some ('!' :: (name ++ ['!']), after.drop 1)
        else some ('!' :: name, after)
      else none

/-- Whether a handle has both its marks. -/
def isClosed (lead : List Char) : Bool :=
  2 ≤ lead.length && lead.getLast? == some '!'

/-- A tag at the front of a text, without what must follow it. -/
def openTag? (source : List YamlChar) :
    Option (YamlToken × List YamlChar) :=
  if atOneOf ['<'] (source.drop 1) then
    (tagBytes? true (source.drop 2)).bind fun (content, rest) =>
      if content ≠ [] ∧ atOneOf ['>'] rest then
        some (.tag "" (.ofBytes content), rest.drop 1)
      else none
  else
    (tagHandle? source).bind fun (lead, after) =>
      (tagBytes? false after).bind fun (content, rest) =>
        let handle := String.ofList lead
        if isClosed lead then
          if content = [] then none
          else some (.tag handle (.ofBytes content), rest)
        else
          let suffix := YamlTag.ofBytes ((handle.toUTF8.toList ++ content).drop 1)
          if suffix.bytes = [] then some (.tag "" .mark, rest)
          else some (.tag "!" suffix, rest)

/-- A tag at the front of a text; a gap or a comma in brackets follows it. -/
def tag? (inFlow : Bool) (source : List YamlChar) :
    Option (YamlToken × List YamlChar) :=
  (openTag? source).filter fun (_, rest) =>
    atGap rest || (inFlow && atOneOf [','] rest)

/-- A number of a version at the front of a text, nine digits at most. -/
def versionNumber? (source : List YamlChar) :
    Option (Nat × List YamlChar) :=
  let digits := text (source.takeWhile fun here => isDigit here.char)
  if digits = [] ∨ 9 < digits.length then none
  else
    some
      (Nat.ofDigitChars 10 digits 0,
        source.dropWhile fun here => isDigit here.char)

/-- The version at the front of a text. -/
def version? (source : List YamlChar) : Option (YamlToken × List YamlChar) :=
  (versionNumber? source).bind fun (major, afterMajor) =>
    if atOneOf ['.'] afterMajor then
      (versionNumber? (afterMajor.drop 1)).map fun (minor, rest) =>
        (version major minor, rest)
    else none

/-- A handle and what it stands for, at the front of a text. -/
def handleMeaning? (source : List YamlChar) :
    Option (YamlToken × List YamlChar) :=
  (tagHandle? source).bind fun (name, afterName) =>
    if (isClosed name || name == ['!']) &&
        afterName.head?.any YamlChar.isBlank then
      (tagBytes? true (skipBlanks afterName)).bind fun (meaning, rest) =>
        if meaning ≠ [] ∧ atGap rest then
          some (.handle (String.ofList name) (.ofBytes meaning), rest)
        else none
    else none

/-- A directive, its percent sign taken, up to the end of its line. -/
def directive? (source : List YamlChar) :
    Option (YamlToken × List YamlChar) :=
  let (name, afterName) := takeName source
  let content :=
    if ¬ atGap afterName then none
    else if name = "YAML".toList then version? (skipBlanks afterName)
    else if name = "TAG".toList then handleMeaning? (skipBlanks afterName)
    else none
  content.bind fun (token, rest) =>
    (lineEnd? rest).map fun after => (token, after.drop 1)

end YamlToken

end VerbChain
