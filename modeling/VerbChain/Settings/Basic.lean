import VerbChain.Json.Writing
import VerbChain.Text.Diagnostic

namespace VerbChain

/-!
# Settings

What an engine is told once, when it is built.
-/

/-- How actions are printed. -/
inductive PrintFormat where
  | text
  | json
  deriving Repr, DecidableEq

namespace PrintFormat

/-- The name of a format in settings. -/
def name : PrintFormat → String
  | .text => "text"
  | .json => "json"

/-- The format of a name. -/
def ofName? (name : String) : Option PrintFormat :=
  if name = "text" then some .text
  else if name = "json" then some .json
  else none

end PrintFormat

/-- The settings of an engine. -/
structure Settings where
  /-- How many events a stream holds; nothing bounds nothing. -/
  streamCapacity : Option Nat
  /-- Which log lines are wanted. -/
  logFilter : String
  printFormat : PrintFormat
  deriving Repr, DecidableEq

namespace Settings

/-- The settings of an engine that was told nothing. -/
def standard : Settings where
  streamCapacity := none
  logFilter := "warn"
  printFormat := .text

/-- Settings as JSON. -/
def toStored (settings : Settings) : Json :=
  .object
    [("stream_capacity",
        (settings.streamCapacity.map fun n => Json.integer n).getD .null),
      ("log_filter", .string settings.logFilter),
      ("print_format", .string settings.printFormat.name)]

/-- Settings as diagnostics show them. -/
def diagnostic (settings : Settings) : String :=
  let capacity :=
    match settings.streamCapacity with
    | none => "None"
    | some n => "Some(" ++ toString n ++ ")"
  let format :=
    match settings.printFormat with
    | .text => "Text"
    | .json => "Json"
  "EngineConfig \x7b stream_capacity: " ++ capacity ++ ", log_filter: " ++
    diagnosticText settings.logFilter ++ ", print_format: " ++ format ++
    " \x7d"

end Settings

end VerbChain
