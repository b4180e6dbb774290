import VerbChain.Chain.Basic
import VerbChain.Json.Record
import VerbChain.Json.Writing

namespace VerbChain

/-!
# The stored form of a chain

A chain is stored as JSON records: a chain has its calls, a call its name and
its arguments, an argument its name and its value, and a value its kind and
what it is.  Numbers are always stored with a fraction, so a number that is not
finite is stored as null and cannot be read back.
-/

namespace Value

/-- What a value is, without its kind. -/
def content : Value → Json
  | .number value => .ofBinary value
  | .string content => .string content
  | .identifier name => .string name
  | .bool value => .bool value
  | .function name => .string name

/-- A value as it is stored. -/
def toStored (value : Value) : Json :=
  .object [("kind", .string value.kind.name), ("value", value.content)]

/-- Read what a value of a named kind is. -/
def ofContent? (kind : String) (document : JsonDocument) : Option Value :=
  if kind = "number" then document.number?.map .number
  else if kind = "string" then document.text?.map .string
  else if kind = "identifier" then document.text?.map .identifier
  else if kind = "bool" then document.bool?.map .bool
  else if kind = "function" then document.text?.map .function
  else none

/-- Read the kind of a stored value; in an array it is a plain string. -/
def kindOfStored? (room : Nat) (stored kind : JsonDocument) : Option String :=
  match stored with
  | .array _ => kind.text?
  | _ => kind.choice? room

/-- Read a stored value. -/
def ofStored? (room : Nat) (document : JsonDocument) : Option Value := do
  let parts ← document.record? ["kind", "value"] room
  let kind ← kindOfStored? (room - 1) document (← parts.lookup "kind")
  ofContent? kind (← parts.lookup "value")

end Value

namespace Argument

/-- An argument as it is stored; no name is null. -/
def toStored (argument : Argument) : Json :=
  .object
    [("name", (argument.name.map Json.string).getD .null),
      ("value", argument.value.toStored)]

/-- Read a stored name; null and no name at all are no name. -/
def nameOfStored? : Option JsonDocument → Option (Option String)
  | none => some none
  | some .null => some none
  | some document => document.text?.map some

/-- Read a stored argument. -/
def ofStored? (room : Nat) (document : JsonDocument) : Option Argument := do
  let parts ← document.record? ["name", "value"] room
  let name ← nameOfStored? (parts.lookup "name")
  let value ← Value.ofStored? (room - 1) (← parts.lookup "value")
  return ⟨name, value⟩

end Argument

namespace Call

/-- A call as it is stored. -/
def toStored (call : Call) : Json :=
  .object
    [("name", .string call.name),
      ("args", .array (call.arguments.map Argument.toStored))]

/-- Read stored arguments; none stored are none. -/
def argumentsOfStored? (room : Nat) :
    Option JsonDocument → Option (List Argument)
  | none => some []
  | some document => document.list? Argument.ofStored? room

/-- Read a stored call. -/
def ofStored? (room : Nat) (document : JsonDocument) : Option Call := do
  let parts ← document.record? ["name", "args"] room
  let name ← (← parts.lookup "name").text?
  let arguments ← argumentsOfStored? (room - 1) (parts.lookup "args")
  return ⟨name, arguments⟩

end Call

namespace Chain

/-- A chain as it is stored. -/
def toStored (chain : Chain) : Json :=
  .object [("calls", .array (chain.calls.map Call.toStored))]

/-- Read a stored chain. -/
def ofStored? (room : Nat) (document : JsonDocument) : Option Chain := do
  let parts ← document.record? ["calls"] room
  let calls ← (← parts.lookup "calls").list? Call.ofStored? (room - 1)
  return ⟨calls⟩

/-- A chain as JSON text. -/
def toText (chain : Chain) : String :=
  chain.toStored.compact

/-- Read a chain from JSON text. -/
def ofText? (text : String) : Option Chain :=
  JsonDocument.decode? ofStored? text

end Chain

end VerbChain
