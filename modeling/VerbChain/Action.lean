import VerbChain.Json.Record
import VerbChain.Json.Writing

namespace VerbChain

/-!
# Actions

An action is a description of one effect: what kind it is and the data it
needs.  A plan is a list of actions, to be carried out later.
-/

/-- The data of an action, by key. -/
abbrev Payload := Table Json

/-- A description of one effect. -/
structure Action where
  kind : String
  payload : Payload

/-- Actions in the order they are to be carried out. -/
abbrev Plan := List Action

namespace Action

/-- An action without data. -/
def bare (kind : String) : Action :=
  ⟨kind, .empty⟩

/-- The same action with a value under a key. -/
def put (action : Action) (key : String) (value : Json) : Action :=
  { action with payload := action.payload.insert key value }

/-- The value under a key. -/
def get? (action : Action) (key : String) : Option Json :=
  action.payload.find? key

/-- The text under a key. -/
def text? (action : Action) (key : String) : Option String :=
  (action.get? key).bind Json.string?

/-- The number under a key. -/
def number? (action : Action) (key : String) : Option Binary64 :=
  (action.get? key).bind Json.number?

/-- Equality of actions that compares fractional numbers numerically. -/
def agrees (left right : Action) : Bool :=
  left.kind == right.kind &&
    Json.agreeFields left.payload.entries right.payload.entries

/-- An action as it is stored. -/
def toStored (action : Action) : Json :=
  .object
    [("kind", .string action.kind),
      ("payload", .object action.payload.entries)]

/-- Read a stored payload; none stored is the empty one. -/
def payloadOfStored? (room : Nat) : Option JsonDocument → Option Payload
  | none => some .empty
  | some document => document.table? room

/-- Read a stored action. -/
def ofStored? (room : Nat) (document : JsonDocument) : Option Action := do
  let parts ← document.record? ["kind", "payload"] room
  let kind ← (← parts.lookup "kind").text?
  let payload ← payloadOfStored? (room - 1) (parts.lookup "payload")
  return ⟨kind, payload⟩

/-- An action as JSON text. -/
def toText (action : Action) : String :=
  action.toStored.compact

/-- Read an action from JSON text. -/
def ofText? (text : String) : Option Action :=
  JsonDocument.decode? ofStored? text

end Action

end VerbChain
