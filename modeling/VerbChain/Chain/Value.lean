import VerbChain.Number.Layout

namespace VerbChain

/-!
# Argument values

The values that a call can be given, their kinds, and their text in a
program.
-/

/-- What a value is. -/
inductive ValueKind where
  | number
  | string
  | identifier
  | bool
  | function
  deriving Repr, DecidableEq

/-- The name of a kind, in messages and in stored chains. -/
def ValueKind.name : ValueKind → String
  | .number => "number"
  | .string => "string"
  | .identifier => "identifier"
  | .bool => "bool"
  | .function => "function"

/-- A value given to a call; a function is a reference to a verb by name. -/
inductive Value where
  | number (value : Binary64)
  | string (content : String)
  | identifier (name : String)
  | bool (value : Bool)
  | function (name : String)
  deriving Repr, DecidableEq

namespace Value

/-- The kind of a value. -/
def kind : Value → ValueKind
  | .number _ => .number
  | .string _ => .string
  | .identifier _ => .identifier
  | .bool _ => .bool
  | .function _ => .function

/-- The number a value is. -/
def number? : Value → Option Binary64
  | .number value => some value
  | _ => none

/-- The text a value is: the content of a string or an identifier's name. -/
def text? : Value → Option String
  | .string content => some content
  | .identifier name => some name
  | _ => none

/-- The truth value a value is. -/
def bool? : Value → Option Bool
  | .bool value => some value
  | _ => none

/-- The verb a value refers to. -/
def function? : Value → Option String
  | .function name => some name
  | _ => none

/-- Equality of values that compares numbers numerically. -/
def agrees : Value → Value → Bool
  | .number left, .number right => left.equals right
  | .string left, .string right => left == right
  | .identifier left, .identifier right => left == right
  | .bool left, .bool right => left == right
  | .function left, .function right => left == right
  | _, _ => false

/-- A character of a string's content as it is written between quotes. -/
def escape (c : Char) : List Char :=
  if c = '"' then ['\\', '"']
  else if c = '\\' then ['\\', '\\']
  else if c = '\n' then ['\\', 'n']
  else if c = '\t' then ['\\', 't']
  else [c]

/-- A value as it is written in a program. -/
def spelling : Value → List Char
  | .number value => value.sourceText
  | .string content => '"' :: (content.toList.flatMap escape ++ ['"'])
  | .identifier name => name.toList
  | .bool true => "true".toList
  | .bool false => "false".toList
  | .function name => '@' :: name.toList

/-- A value as it is written in a program. -/
def render (value : Value) : String :=
  String.ofList value.spelling

end Value

end VerbChain
