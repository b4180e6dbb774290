import VerbChain.Action
import VerbChain.Files.Access
import VerbChain.Files.Path
import VerbChain.Yaml.Record
import VerbChain.Yaml.Writing

namespace VerbChain

/-!
# Stored plans

A plan is stored as a list of actions, in YAML where the name of the file says
so and otherwise in JSON.
-/

/-- Read an action from a node of a YAML text. -/
def Action.ofNode (room : Nat) (node : YamlNode) : YamlReader Action := do
  let parts ← YamlReader.record ["kind", "payload"] room node
  match parts.lookup "kind" with
  | none => failure
  | some kind =>
      let kind ← YamlReader.text kind
      match parts.lookup "payload" with
      | none => return ⟨kind, .empty⟩
      | some payload => return ⟨kind, ← YamlReader.table (room - 1) payload⟩

/-- The notation of a stored plan. -/
inductive PlanNotation where
  | json
  | yaml
  deriving Repr, DecidableEq

namespace PlanNotation

/-- The notation that the path of a file asks for. -/
def ofPath (path : String) : PlanNotation :=
  if Path.extension? path = some "yaml" ∨ Path.extension? path = some "yml" then
    .yaml
  else .json

end PlanNotation

namespace Plan

/-- A plan as it is stored. -/
def toStored (plan : Plan) : Json :=
  .array (plan.map Action.toStored)

/-- A plan as the text of a file. -/
def toText (plan : Plan) : PlanNotation → String
  | .json => plan.toStored.pretty
  | .yaml => plan.toStored.yaml

/-- Read a plan from the text of a file. -/
def ofText? (text : String) : PlanNotation → Option Plan
  | .json => JsonDocument.decode? (JsonDocument.list? Action.ofStored?) text
  | .yaml => YamlReader.decode? (YamlReader.list Action.ofNode) text

/-- Write a plan to a file, making the folders above it. -/
def save [Monad m] [FileAccess m] (plan : Plan) (path : String) :
    m (Except FileError Unit) := do
  match ← FileAccess.makeFolders path with
  | .error error => return .error error
  | .ok () => FileAccess.writeFile path (plan.toText (.ofPath path))

/-- Read a plan from a file. -/
def load [Monad m] [FileAccess m] (path : String) :
    m (Except FileError Plan) := do
  match ← FileAccess.readFile path with
  | .error error => return .error error
  | .ok text =>
      match ofText? text (.ofPath path) with
      | some plan => return .ok plan
      | none => return .error .invalidData

end Plan

end VerbChain
