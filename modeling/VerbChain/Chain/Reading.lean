import VerbChain.Chain.Basic
import VerbChain.Source.Tokens

namespace VerbChain

/-!
# Reading a chain from tokens

The grammar of a program, one reader for each of its phrases.  A reader
returns what it read and the tokens after it, or the first token that cannot
continue the phrase together with what could have stood there.  Every reader
takes at least one token, so the readers of repeated phrases end.

Readers see tokens without their places; a refusal finds its place again by
the number of tokens that were left.
-/

/-- What the grammar admits at a place where it was not met. -/
inductive Expected where
  | identifier
  | leftParen
  | rightParen
  | value
  | link
  deriving Repr, DecidableEq

/-- What a place admits, as messages name it. -/
def Expected.describe : Expected → String
  | .identifier => "identifier"
  | .leftParen => "'('"
  | .rightParen => "')'"
  | .value => "value"
  | .link => "'.' or end of input"

/-- What was expected and the tokens from the offending one on. -/
structure Refusal where
  expected : Expected
  rest : List Token
  deriving Repr, DecidableEq

namespace Reading

/-- Read a value. -/
def value : List Token → Except Refusal (Value × List Token)
  | .number value :: rest => .ok (.number value, rest)
  | .string content :: rest => .ok (.string content, rest)
  | .bool value :: rest => .ok (.bool value, rest)
  | .identifier name :: rest => .ok (.identifier name, rest)
  | .at :: .identifier name :: rest => .ok (.function name, rest)
  | .at :: rest => .error ⟨.identifier, rest⟩
  | rest => .error ⟨.value, rest⟩

/-- Read an argument: an identifier before an equals sign is its name. -/
def argument : List Token → Except Refusal (Argument × List Token)
  | .identifier name :: .equals :: rest =>
      (value rest).map fun (value, after) => (.named name value, after)
  | rest =>
      (value rest).map fun (value, after) => (.positional value, after)

/-- What follows a value is shorter. -/
theorem value_rest_length_lt
    {tokens rest : List Token}
    {result : Value}
    (found : value tokens = .ok (result, rest)) :
    rest.length < tokens.length := by
  unfold value at found
  split at found <;> cases found <;> simp only [List.length_cons] <;> omega

/-- What follows an argument is shorter. -/
theorem argument_rest_length_lt
    {tokens rest : List Token}
    {result : Argument}
    (found : argument tokens = .ok (result, rest)) :
    rest.length < tokens.length := by
  unfold argument at found
  split at found
  · next name tail =>
      cases read : value tail with
      | error refusal => rw [read] at found; cases found
      | ok pair =>
          rw [read] at found
          cases found
          have := value_rest_length_lt read
          simp
          omega
  · cases read : value tokens with
    | error refusal => rw [read] at found; cases found
    | ok pair =>
        rw [read] at found
        cases found
        exact value_rest_length_lt read

/-- Read arguments up to the closing parenthesis, one of them at least. -/
def arguments (tokens : List Token) :
    Except Refusal (List Argument × List Token) :=
  match _read : argument tokens with
  | .error refusal => .error refusal
  | .ok (first, .comma :: rest) =>
      (arguments rest).map fun (others, after) => (first :: others, after)
  | .ok (first, .rightParen :: rest) => .ok ([first], rest)
  | .ok (_, rest) => .error ⟨.rightParen, rest⟩
  termination_by tokens.length
  decreasing_by
    have := argument_rest_length_lt _read
    simp at this
    omega

/-- What follows arguments is shorter. -/
theorem arguments_rest_length_lt
    {tokens rest : List Token}
    {result : List Argument}
    (found : arguments tokens = .ok (result, rest)) :
    rest.length < tokens.length := by
  fun_induction arguments tokens generalizing result rest with
  | case1 => cases found
  | case2 tokens first tail read hypothesis =>
      cases more : arguments tail with
      | error refusal => rw [more] at found; cases found
      | ok pair =>
          rw [more] at found
          cases found
          have shorter := hypothesis more
          have := argument_rest_length_lt read
          simp at this
          omega
  | case3 tokens first tail read =>
      cases found
      have := argument_rest_length_lt read
      simp at this
      omega
  | case4 => cases found

/-- Read a call: a verb and its arguments in parentheses. -/
def call : List Token → Except Refusal (Call × List Token)
  | .identifier name :: .leftParen :: .rightParen :: rest =>
      .ok (⟨name, []⟩, rest)
  | .identifier name :: .leftParen :: rest =>
      (arguments rest).map fun (arguments, after) => (⟨name, arguments⟩, after)
  | .identifier _ :: rest => .error ⟨.leftParen, rest⟩
  | rest => .error ⟨.identifier, rest⟩

/-- What follows a call is shorter. -/
theorem call_rest_length_lt
    {tokens rest : List Token}
    {result : Call}
    (found : call tokens = .ok (result, rest)) :
    rest.length < tokens.length := by
  unfold call at found
  split at found
  · cases found
    simp
    omega
  · next name tail _ =>
      cases read : arguments tail with
      | error refusal => rw [read] at found; cases found
      | ok pair =>
          rw [read] at found
          cases found
          have := arguments_rest_length_lt read
          simp
          omega
  · cases found
  · cases found

/-- Read calls joined by points up to the end, one of them at least. -/
def calls (tokens : List Token) : Except Refusal (List Call) :=
  match _read : call tokens with
  | .error refusal => .error refusal
  | .ok (first, []) => .ok [first]
  | .ok (first, .dot :: rest) => (calls rest).map (first :: ·)
  | .ok (_, rest) => .error ⟨.link, rest⟩
  termination_by tokens.length
  decreasing_by
    have := call_rest_length_lt _read
    simp at this
    omega

end Reading

namespace Chain

/-- Read a whole chain; no tokens at all are the chain without calls. -/
def ofTokens : List Token → Except Refusal Chain
  | [] => .ok ⟨[]⟩
  | tokens => (Reading.calls tokens).map Chain.mk

/-- The tokens in front of the first end of input. -/
def body (tokens : List Located) : List Token :=
  (tokens.map Located.token).takeWhile (· != .endOfInput)

/-- A refusal at a place, as an error of the program. -/
def refusalAt (expected : Expected) (offender : Located) : ParseError where
  kind := .syntactic
  text :=
    "expected " ++ expected.describe ++ ", got " ++ offender.token.describe
  position := offender.position

/--
Read a chain from tokens with places.  Tokens behind an end of input do not
count, and a refusal at the very end names the last token there is.
-/
def ofLocated (tokens : List Located) : Except ParseError Chain :=
  match ofTokens (body tokens) with
  | .ok chain => .ok chain
  | .error refusal =>
      let index := (body tokens).length - refusal.rest.length
      let offender :=
        tokens[min index (tokens.length - 1)]?.getD ⟨.endOfInput, .start⟩
      .error (refusalAt refusal.expected offender)

/-- Read a program. -/
def ofSource (source : String) : Except ParseError Chain :=
  match Tokens.ofSource source with
  | .ok tokens => ofLocated tokens
  | .error error => .error error

end Chain

end VerbChain
