import VerbChain.Json.Record
import VerbChain.Json.Writing

namespace VerbChain

/-!
# Contexts

A context is what the calls of one evaluation tell each other: values by key.
Every evaluation starts with an empty one.
-/

/-- Values that one call leaves for the calls after it. -/
structure Context where
  data : Table Json

namespace Context

/-- The context that nothing was left in. -/
def empty : Context := ⟨.empty⟩

/-- The value under a key. -/
def get? (context : Context) (key : String) : Option Json :=
  context.data.find? key

/-- The text under a key. -/
def text? (context : Context) (key : String) : Option String :=
  (context.get? key).bind Json.string?

/-- The same context with a value under a key. -/
def put (context : Context) (key : String) (value : Json) : Context :=
  ⟨context.data.insert key value⟩

/-- The same context without a key. -/
def without (context : Context) (key : String) : Context :=
  ⟨context.data.erase key⟩

/-- Whether a key has a value. -/
def contains (context : Context) (key : String) : Bool :=
  context.data.contains key

/-- The number of keys. -/
def size (context : Context) : Nat :=
  context.data.size

/-- Equality of contexts that compares fractional numbers numerically. -/
def agrees (left right : Context) : Bool :=
  Json.agreeFields left.data.entries right.data.entries

/-- A context as it is stored. -/
def toStored (context : Context) : Json :=
  .object [("data", .object context.data.entries)]

/-- Read a stored context. -/
def ofStored? (room : Nat) (document : JsonDocument) : Option Context := do
  let parts ← document.record? ["data"] room
  let data ← (← parts.lookup "data").table? (room - 1)
  return ⟨data⟩

/-- A context as JSON text. -/
def toText (context : Context) : String :=
  context.toStored.compact

/-- Read a context from JSON text. -/
def ofText? (text : String) : Option Context :=
  JsonDocument.decode? ofStored? text

end Context

end VerbChain
