import VerbChain.Table

namespace VerbChain

/-!
# Cancellation

A token is cancelled by request or by its deadline.  Holders of one token share
both; `CancelRegister` keeps tokens under names that may share a token.
-/

/-- How a token's deadline stands. -/
inductive Deadline where
  | none
  | ahead
  | passed
  deriving Repr, DecidableEq

/-- A request to stop, with a deadline that stops by itself. -/
structure CancelToken where
  requested : Bool
  deadline : Deadline
  deriving Repr, DecidableEq

namespace CancelToken

/-- A token nobody has cancelled and no deadline ends. -/
def fresh : CancelToken :=
  ⟨false, .none⟩

/-- A token whose deadline has passed. -/
def expired : CancelToken :=
  ⟨false, .passed⟩

/-- Ask for a stop. -/
def cancel (token : CancelToken) : CancelToken :=
  { token with requested := true }

/-- Whether work under a token has to stop. -/
def isCancelled (token : CancelToken) : Bool :=
  token.requested || token.deadline == .passed

end CancelToken

/-- Tokens by number, and names that stand for one of them each. -/
structure CancelRegister where
  tokens : List CancelToken
  names : Table Nat

namespace CancelRegister

/-- A register without tokens. -/
def empty : CancelRegister := ⟨[], .empty⟩

/-- Give a name to a new token. -/
def create (register : CancelRegister) (name : String)
    (deadline : Deadline) : CancelRegister :=
  ⟨register.tokens ++ [⟨false, deadline⟩],
    register.names.insert name register.tokens.length⟩

/-- Give a second name to the token of a name. -/
def share (register : CancelRegister) (name second : String) :
    CancelRegister :=
  match register.names.find? name with
  | some number => { register with names := register.names.insert second number }
  | none => register

/-- Cancel the token of a name. -/
def cancel (register : CancelRegister) (name : String) : CancelRegister :=
  match register.names.find? name with
  | some number =>
      { register with tokens := register.tokens.modify number CancelToken.cancel }
  | none => register

/-- Every name with whether its token is cancelled. -/
def view (register : CancelRegister) : List (String × Bool) :=
  register.names.entries.map fun (name, number) =>
    (name, (register.tokens[number]?.map CancelToken.isCancelled).getD false)

end CancelRegister

end VerbChain
