import VerbChain.Plan.Execution
import VerbChain.Settings.Basic

namespace VerbChain

/-!
# Printing a plan

The executor that carries out an action by printing it, one line for each.  A
line and its end are written one after the other, so a device that is full may
keep a line without its end.
-/

/-- An action as one line of text or of JSON. -/
def Action.line (format : PrintFormat) (action : Action) : String :=
  match format with
  | .text =>
      "Action: " ++ action.kind ++ " with payload: " ++
        (Json.object action.payload.entries).compact
  | .json => action.toText

namespace Executor

/-- Write a line and then its end. -/
def writeLine (write : String → ρ → Except ExecutorError Unit × ρ)
    (line : String) (state : ρ) : Except ExecutorError Unit × ρ :=
  match write line state with
  | (.error error, left) => (.error error, left)
  | (.ok (), left) => write "\n" left

/-- The executor that writes a line for every action. -/
def printing (format : PrintFormat)
    (write : String → ρ → Except ExecutorError Unit × ρ) : Executor ρ :=
  fun action world =>
    let (answer, state) := writeLine write (action.line format) world.state
    (answer, { world with state := state })

/-- Write at the end of a text. -/
def append (text printed : String) : Except ExecutorError Unit × String :=
  (.ok (), printed ++ text)

end Executor

end VerbChain
