import VerbChain.Json.Writing
import VerbChain.Yaml.Quoting

namespace VerbChain

/-!
# Writing YAML

A value is written in block style: every item of a list on lines of its own
behind a dash, every field on lines of its own behind its key.  A list inside a
field stands no further in than the key; everything else stands two columns
further in.  What follows a dash starts on the line of the dash.  Each piece
written here includes the end of its last line.
-/

namespace Yaml

/-- The spaces in front of a line. -/
def margin (indent : Nat) : List Char :=
  List.replicate indent ' '

/-- A number in a fixed count of upper-case hexadecimal digits. -/
def fixedHex : Nat → Nat → List Char
  | 0, _ => []
  | width + 1, n =>
      fixedHex width (n / 16) ++ [(Nat.digitChar (n % 16)).toUpper]

/-- The letter of a character that has a short escape. -/
def shortEscape? (c : Char) : Option Char :=
  [('\x00', '0'), ('\x07', 'a'), ('\x08', 'b'), ('\t', 't'), ('\n', 'n'),
    ('\x0b', 'v'), ('\x0c', 'f'), ('\r', 'r'), ('\x1b', 'e'), ('"', '"'),
    ('\\', '\\'), ('\x85', 'N'), ('\u2028', 'L'), ('\u2029', 'P')].lookup c

/-- A character as it stands between double quotes. -/
def escape (c : Char) : List Char :=
  if isPrintable c ∧ ¬ isBreak c ∧ c ≠ '"' ∧ c ≠ '\\' then [c]
  else
    match shortEscape? c with
    | some letter => ['\\', letter]
    | none =>
        if c.toNat ≤ 0xFF then '\\' :: 'x' :: fixedHex 2 c.toNat
        else if c.toNat ≤ 0xFFFF then '\\' :: 'u' :: fixedHex 4 c.toNat
        else '\\' :: 'U' :: fixedHex 8 c.toNat

/-- A text between double quotes. -/
def doubleQuoted (text : List Char) : List Char :=
  '"' :: (text.flatMap escape ++ ['"'])

/--
The inside of single quotes, where a line after a break starts behind the
margin; the flag tells whether a line has just been broken.
-/
def singleInside (indent : Nat) : Bool → List Char → List Char
  | broken, [] => if broken then margin indent else []
  | broken, c :: rest =>
      if isBreak c then c :: singleInside indent true rest
      else
        (if broken then margin indent else []) ++
          (if c = '\'' then ['\'', '\''] else [c]) ++
          singleInside indent false rest

/-- A text between single quotes, each single quote inside written twice. -/
def singleQuoted (indent : Nat) (text : List Char) : List Char :=
  '\'' :: (singleInside indent false text ++ ['\''])

/-- The lines of a literal block; the flag tells whether a line starts. -/
def literalLines (indent : Nat) : Bool → List Char → List Char
  | started, [] => if started then [] else ['\n']
  | started, c :: rest =>
      if isBreak c then c :: literalLines indent true rest
      else
        (if started then margin indent else []) ++
          (c :: literalLines indent false rest)

/-- The mark of a literal block that tells how many line ends it keeps. -/
def keepMark (text : List Char) : List Char :=
  match text.reverse with
  | [] => ['-']
  | last :: before =>
      if !isBreak last then ['-']
      else
        match before with
        | [] => ['+']
        | next :: _ => if isBreak next then ['+'] else []

/-- A literal block: its marks and its lines. -/
def literalBlock (indent : Nat) (text : List Char) : List Char :=
  let indentMark :=
    if Quoting.startsWith (fun c => c == ' ' || isBreak c) text then ['2']
    else []
  '|' :: (indentMark ++ keepMark text ++ '\n' :: literalLines indent true text)

/-- A text that takes one line, in the quotes it needs. -/
def inlineText (indent : Nat) (text : String) : List Char :=
  match Quoting.ofText text with
  | .plain => text.toList
  | .single => singleQuoted indent text.toList
  | _ => doubleQuoted text.toList

/-- A text and the end of its last line. -/
def textLine (indent : Nat) (text : String) : List Char :=
  match Quoting.ofText text with
  | .literal => literalBlock indent text.toList
  | _ => inlineText indent text ++ ['\n']

/-- A value without items and fields of its own, and the end of its line. -/
def scalarLine (indent : Nat) : Json → List Char
  | .null => "null\n".toList
  | .bool true => "true\n".toList
  | .bool false => "false\n".toList
  | .integer value => Json.integerText value ++ ['\n']
  | .float negative rank =>
      NumberLayout.yaml.finite negative rank ++ ['\n']
  | .string content => textLine indent content
  | .array _ => "[]\n".toList
  | .object _ => "\x7b\x7d\n".toList

/-- Whether a key may stand on one line with its colon. -/
def isSimpleKey (key : String) : Bool :=
  !key.toList.any isBreak && key.utf8ByteSize ≤ 128

/-- What a value stands behind. -/
inductive Place where
  /-- A dash, or a colon on a line of its own. -/
  | dash
  /-- The colon of a key on the same line. -/
  | key
  deriving Repr, DecidableEq

namespace Place

/-- Where the items of a list stand. -/
def listMargin (indent : Nat) : Place → Nat
  | .dash => indent + 2
  | .key => indent

/-- What leads from a place to the first item or field. -/
def opening (inner : Nat) : Place → List Char
  | .dash => [' ']
  | .key => '\n' :: margin inner

/-- The place of the value of a key. -/
def ofKey (key : String) : Place :=
  if isSimpleKey key then .key else .dash

end Place

/-- A key and its colon, behind the margin. -/
def fieldHead (indent : Nat) (key : String) : List Char :=
  if isSimpleKey key then inlineText indent key ++ [':']
  else
    '?' :: ' ' :: (textLine (indent + 2) key ++ (margin indent ++ [':']))

mutual

/-- A value behind its place at a margin, the space between them included. -/
def value (indent : Nat) (place : Place) : Json → List Char
  | .array (item :: items) =>
      place.opening (place.listMargin indent) ++
        '-' :: (value (place.listMargin indent) .dash item ++
          listItems (place.listMargin indent) items)
  | .object ((key, first) :: fields) =>
      place.opening (indent + 2) ++ (fieldHead (indent + 2) key ++
        (value (indent + 2) (.ofKey key) first ++
          tableFields (indent + 2) fields))
  | scalar => ' ' :: scalarLine (indent + 2) scalar

/-- Items on lines of their own. -/
def listItems (indent : Nat) : List Json → List Char
  | [] => []
  | item :: items =>
      margin indent ++ '-' :: (value indent .dash item ++
        listItems indent items)

/-- Fields on lines of their own. -/
def tableFields (indent : Nat) : List (String × Json) → List Char
  | [] => []
  | (key, first) :: fields =>
      margin indent ++ (fieldHead indent key ++
        (value indent (.ofKey key) first ++ tableFields indent fields))

end

/-- A value as a whole text. -/
def document : Json → List Char
  | .array (item :: items) => listItems 0 (item :: items)
  | .object (entry :: fields) => tableFields 0 (entry :: fields)
  | value => scalarLine 2 value

end Yaml

/-- A value as YAML text in block style. -/
def Json.yaml (json : Json) : String :=
  String.ofList (Yaml.document json)

end VerbChain
