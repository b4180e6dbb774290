import VerbChain.Chain.Basic
import VerbChain.Source.Token

namespace VerbChain

/-!
# The tokens of a chain

The one list of tokens that a chain is put down as: calls with a point between
each two, the arguments of a call in parentheses with a comma between each two,
an equals sign behind the name of an argument, and an at sign before a
reference to a verb.
-/

/-- The tokens of a value. -/
def Value.tokens : Value → List Token
  | .number value => [.number value]
  | .string content => [.string content]
  | .identifier name => [.identifier name]
  | .bool value => [.bool value]
  | .function name => [.at, .identifier name]

/-- The tokens of an argument. -/
def Argument.tokens (argument : Argument) : List Token :=
  match argument.name with
  | some name => .identifier name :: .equals :: argument.value.tokens
  | none => argument.value.tokens

/-- The tokens of a call. -/
def Call.tokens (call : Call) : List Token :=
  .identifier call.name :: .leftParen ::
    (joined [.comma] (call.arguments.map Argument.tokens) ++ [.rightParen])

/-- The tokens of a chain. -/
def Chain.tokens (chain : Chain) : List Token :=
  joined [.dot] (chain.calls.map Call.tokens)

end VerbChain
