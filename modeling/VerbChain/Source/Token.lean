import VerbChain.Number.Layout
import VerbChain.Text.Position

namespace VerbChain

/-!
# Tokens

The tokens of a chained-call program, with the wording that messages use for
them.
-/

/-- A token of a program. -/
inductive Token where
  | identifier (name : String)
  | number (value : Binary64)
  | string (content : String)
  | bool (value : Bool)
  | leftParen
  | rightParen
  | comma
  | dot
  | equals
  | at
  | endOfInput
  deriving Repr, DecidableEq

namespace Token

/-- A token as messages name it; the content of a string stands as it is. -/
def describe : Token → String
  | .identifier name => "identifier '" ++ name ++ "'"
  | .number value => "number " ++ String.ofList value.sourceText
  | .string content => "string \"" ++ content ++ "\""
  | .bool true => "'true'"
  | .bool false => "'false'"
  | .leftParen => "'('"
  | .rightParen => "')'"
  | .comma => "','"
  | .dot => "'.'"
  | .equals => "'='"
  | .at => "'@'"
  | .endOfInput => "end of input"

/-- The token of a character that is a token by itself. -/
def ofPunctuation? : Char → Option Token
  | '(' => some .leftParen
  | ')' => some .rightParen
  | ',' => some .comma
  | '.' => some .dot
  | '=' => some .equals
  | '@' => some .at
  | _ => none

/-- The token of a word: the two truth values are no identifiers. -/
def ofWord (word : String) : Token :=
  if word = "true" then .bool true
  else if word = "false" then .bool false
  else .identifier word

end Token

/-- A token with the place of its first character. -/
structure Located where
  token : Token
  position : Position
  deriving Repr, DecidableEq

end VerbChain
