import VerbChain.Chain.Value
import VerbChain.Text.Lines

namespace VerbChain

/-!
# Call chains

A program is a chain of calls.  A call names a verb and gives it arguments,
each under a name or by position.
-/

/-- A value given to a call, under a name or by position. -/
structure Argument where
  name : Option String
  value : Value
  deriving Repr, DecidableEq

/-- One verb with its arguments in source order. -/
structure Call where
  name : String
  arguments : List Argument
  deriving Repr, DecidableEq

/-- A program: calls evaluated from first to last. -/
structure Chain where
  calls : List Call
  deriving Repr, DecidableEq

namespace Argument

/-- An argument given under a name. -/
def named (name : String) (value : Value) : Argument :=
  ⟨some name, value⟩

/-- An argument given by position. -/
def positional (value : Value) : Argument :=
  ⟨none, value⟩

/-- Equality of arguments that compares numbers numerically. -/
def agrees (left right : Argument) : Bool :=
  left.name == right.name && left.value.agrees right.value

/-- An argument as it is written in a program. -/
def spelling (argument : Argument) : List Char :=
  match argument.name with
  | some name => name.toList ++ '=' :: argument.value.spelling
  | none => argument.value.spelling

end Argument

/-- Whether two lists have the same length and agree place by place. -/
def agreeing (same : α → α → Bool) : List α → List α → Bool
  | [], [] => true
  | left :: lefts, right :: rights =>
      same left right && agreeing same lefts rights
  | _, _ => false

namespace Call

/-- Equality of calls that compares numbers numerically. -/
def agrees (left right : Call) : Bool :=
  left.name == right.name &&
    agreeing Argument.agrees left.arguments right.arguments

/-- A call as it is written in a program. -/
def spelling (call : Call) : List Char :=
  call.name.toList ++
    '(' :: (joined [',', ' '] (call.arguments.map Argument.spelling) ++ [')'])

/-- A call as it is written in a program. -/
def render (call : Call) : String :=
  String.ofList call.spelling

end Call

namespace Chain

/-- The number of calls. -/
def length (chain : Chain) : Nat :=
  chain.calls.length

/-- Whether a chain has no call. -/
def isEmpty (chain : Chain) : Bool :=
  chain.calls.isEmpty

/-- Equality of chains that compares numbers numerically. -/
def agrees (left right : Chain) : Bool :=
  agreeing Call.agrees left.calls right.calls

/-- A chain as it is written in a program: the calls joined by points. -/
def spelling (chain : Chain) : List Char :=
  joined ['.'] (chain.calls.map Call.spelling)

/-- A chain as it is written in a program. -/
def render (chain : Chain) : String :=
  String.ofList chain.spelling

end Chain

end VerbChain
