import VerbChain.Grammar.Cleaning
import VerbChain.Json.Record
import VerbChain.Json.Writing

namespace VerbChain

/-!
# Grammar tools

A tool whose output must follow a grammar, and the request that offers it.
-/

/-- The notation a tool's grammar is written in. -/
inductive GrammarSyntax where
  | lark
  | regex
  deriving Repr, DecidableEq

namespace GrammarSyntax

/-- The name of a notation. -/
def name : GrammarSyntax → String
  | .lark => "lark"
  | .regex => "regex"

/-- The notation of a name. -/
def ofName? (name : String) : Option GrammarSyntax :=
  if name = "lark" then some .lark
  else if name = "regex" then some .regex
  else none

end GrammarSyntax

/-- A tool whose output follows a grammar. -/
structure GrammarTool where
  name : String
  description : String
  grammar : String
  notated : GrammarSyntax
  deriving Repr, DecidableEq

namespace GrammarTool

/-- A tool as it is stored. -/
def toStored (tool : GrammarTool) : Json :=
  .object
    [("name", .string tool.name),
      ("description", .string tool.description),
      ("grammar", .string tool.grammar),
      ("syntax", .string tool.notated.name)]

/-- Read the stored notation; none stored is the first one. -/
def notationOfStored? (room : Nat) :
    Option JsonDocument → Option GrammarSyntax
  | none => some .lark
  | some document => (document.choice? room).bind GrammarSyntax.ofName?

/-- Read a stored tool. -/
def ofStored? (room : Nat) (document : JsonDocument) :
    Option GrammarTool := do
  let parts ←
    document.record? ["name", "description", "grammar", "syntax"] room
  let name ← (← parts.lookup "name").text?
  let description ← (← parts.lookup "description").text?
  let grammar ← (← parts.lookup "grammar").text?
  let notated ← notationOfStored? (room - 1) (parts.lookup "syntax")
  return ⟨name, description, grammar, notated⟩

/-- A tool as JSON text. -/
def toText (tool : GrammarTool) : String :=
  tool.toStored.compact

/-- Read a tool from JSON text. -/
def ofText? (text : String) : Option GrammarTool :=
  JsonDocument.decode? ofStored? text

/-- A tool as it is offered, its grammar cleaned, keys in order. -/
def offer (tool : GrammarTool) : Json :=
  .object
    [("description", .string tool.description),
      ("format", .object
        [("definition", .string (Grammar.clean tool.grammar)),
          ("syntax", .string tool.notated.name),
          ("type", .string "grammar")]),
      ("name", .string tool.name),
      ("type", .string "custom")]

/-- The request that offers a tool and asks for plain text. -/
def request (tool : GrammarTool) : Json :=
  .object
    [("text", .object
        [("format", .object [("type", .string "text")])]),
      ("tool", tool.offer)]

end GrammarTool

end VerbChain
