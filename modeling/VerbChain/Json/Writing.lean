import VerbChain.Json.Basic

namespace VerbChain

/-!
# Writing JSON

One writer serves every spacing: a spacing says what stands in front of an
item, in front of a closing bracket, and between a key and its value.  The
compact spacing adds nothing, the pretty one a line for every item.
-/

/-- The blanks a JSON text has between its tokens. -/
structure JsonSpacing where
  /-- What stands in front of an item or a closing bracket at a depth. -/
  line : Nat → List Char
  /-- What stands behind a colon. -/
  afterColon : List Char

namespace JsonSpacing

/-- No blanks at all. -/
def compact : JsonSpacing where
  line _ := []
  afterColon := []

/-- A line for every item, two columns further in for each level. -/
def pretty : JsonSpacing where
  line depth := '\n' :: List.replicate (2 * depth) ' '
  afterColon := [' ']

end JsonSpacing

namespace Json

/-- A character below the space as four hexadecimal digits after `\u`. -/
def controlEscape (c : Char) : List Char :=
  ['\\', 'u', '0', '0', (c.toNat / 16).digitChar, (c.toNat % 16).digitChar]

/-- A character as it is written between quotes. -/
def escape (c : Char) : List Char :=
  if c = '"' then ['\\', '"']
  else if c = '\\' then ['\\', '\\']
  else if c = '\x08' then ['\\', 'b']
  else if c = '\x0c' then ['\\', 'f']
  else if c = '\n' then ['\\', 'n']
  else if c = '\r' then ['\\', 'r']
  else if c = '\t' then ['\\', 't']
  else if c.toNat < 0x20 then controlEscape c
  else [c]

/-- A text between quotes. -/
def quoted (content : String) : List Char :=
  '"' :: (content.toList.flatMap escape ++ ['"'])

/-- A whole number in decimal digits. -/
def integerText : Int → List Char
  | .ofNat n => Nat.toDigits 10 n
  | .negSucc n => '-' :: Nat.toDigits 10 (n + 1)

mutual

/-- A JSON value at a depth, in a spacing. -/
def write (spacing : JsonSpacing) (depth : Nat) : Json → List Char
  | .null => "null".toList
  | .bool true => "true".toList
  | .bool false => "false".toList
  | .integer value => integerText value
  | .float negative rank => NumberLayout.json.finite negative rank
  | .string content => quoted content
  | .array [] => ['[', ']']
  | .array (item :: items) =>
      '[' :: (spacing.line (depth + 1) ++
        (write spacing (depth + 1) item ++ writeItems spacing depth items))
  | .object [] => ['{', '}']
  | .object ((key, value) :: fields) =>
      '{' :: (spacing.line (depth + 1) ++
        (quoted key ++ ':' :: (spacing.afterColon ++
          (write spacing (depth + 1) value ++
            writeFields spacing depth fields))))

/-- The items after the first, up to the closing bracket. -/
def writeItems (spacing : JsonSpacing) (depth : Nat) : List Json → List Char
  | [] => spacing.line depth ++ [']']
  | item :: items =>
      ',' :: (spacing.line (depth + 1) ++
        (write spacing (depth + 1) item ++ writeItems spacing depth items))

/-- The fields after the first, up to the closing brace. -/
def writeFields (spacing : JsonSpacing) (depth : Nat) :
    List (String × Json) → List Char
  | [] => spacing.line depth ++ ['}']
  | (key, value) :: fields =>
      ',' :: (spacing.line (depth + 1) ++
        (quoted key ++ ':' :: (spacing.afterColon ++
          (write spacing (depth + 1) value ++
            writeFields spacing depth fields))))

end

/-- A JSON value without blanks between its tokens. -/
def compact (json : Json) : String :=
  String.ofList (json.write .compact 0)

/-- A JSON value with a line for every item. -/
def pretty (json : Json) : String :=
  String.ofList (json.write .pretty 0)

end Json

end VerbChain
