import VerbChain.Chain.Stored
import VerbChain.Command.Request
import VerbChain.Engine
import VerbChain.Grammar.Tool
import VerbChain.Language.Arithmetic
import VerbChain.Language.Music
import VerbChain.Language.Tasks
import VerbChain.Plan.Storage

namespace VerbChain

/-!
# What commands report

A command prints on two texts and ends with a code.  Everything it does between
reading its source and writing a plan is said here as a function of the source.
Running a program prints its actions once the whole program is compiled;
streaming it prints the actions of each call when the call is completed.
-/

/-- What a command printed and how it ended. -/
structure Report where
  code : Nat
  output : String
  errors : String
  deriving Repr, DecidableEq

namespace Report

/-- All went well. -/
def success (output : String) : Report :=
  ⟨0, output, ""⟩

/-- Something went wrong after some output. -/
def failure (output message : String) : Report :=
  ⟨1, output, "error: " ++ message ++ "\n"⟩

/-- Texts as lines. -/
def lines (texts : List String) : String :=
  String.join (texts.map fun text => text ++ "\n")

/-- Success with an output, or an error after it. -/
def ofAnswer (output : String) : Except EngineError α → Report
  | .ok _ => success output
  | .error error => failure output error.message

section Planning

/-- The engine of a planning language that prints its actions. -/
def printingEngine (registry : Registry Unit Context (List Action))
    (settings : Settings) : PlanningEngine Unit String where
  convention := .planning
  grammar := Grammar.standard
  parser := Chain.ofSource
  registry := registry
  executor := Executor.printing settings.printFormat Executor.append
  settings := settings

/-- The world in front of a program without a state. -/
def freshWorld : World Unit := ⟨.fresh, ()⟩

variable (engine : PlanningEngine Unit String)

/-- The plan of a program. -/
def compiled (source : String) : Except EngineError Plan :=
  (engine.compile source ()).1

/-- Compile a program and print its plan. -/
def ofCompile (source : String) : Report :=
  match compiled engine source with
  | .ok plan => success (plan.toStored.pretty ++ "\n")
  | .error error => failure "" error.message

/-- Run a program. -/
def ofRun (source : String) : Report :=
  let (answer, _, printed) := engine.run source freshWorld ""
  ofAnswer printed answer

/-- Carry out a plan. -/
def ofPlan (plan : Plan) : Report :=
  let (answer, world) := engine.executePlan plan ⟨.fresh, ""⟩
  ofAnswer world.state answer

/-- Carry out actions as they come, up to the first error. -/
def ofActions (executor : Executor String) :
    List (StreamItem Action) → String → Report
  | [], printed => success printed
  | .error error :: _, printed => failure printed error.message
  | .ok action :: rest, printed =>
      match executor action ⟨.fresh, printed⟩ with
      | (.ok (), next) => ofActions executor rest next.state
      | (.error error, next) => failure next.state error.text

/-- Stream a program and carry out its actions. -/
def ofStream (source : String) : Report :=
  ofActions engine.executor (engine.stream source freshWorld).1.drain.1 ""

end Planning

section Tasks

/-- The engine of the language of tasks. -/
def tasksEngine (settings : Settings) : DirectEngine Tasks.Log where
  convention := .direct
  grammar := Grammar.standard
  parser := Chain.ofSource
  registry := Tasks.registry
  executor := fun _ world => (.ok (), world)
  settings := settings

/-- Execute a program of tasks and print the entries it wrote. -/
def ofTasks (settings : Settings) (source : String) : Report :=
  let (answer, world) := (tasksEngine settings).execute source ⟨.fresh, []⟩
  match answer with
  | .ok () => success (lines world.state)
  | .error error => failure "" error.message

/-- Print calls as they are completed, and entries when all are. -/
def ofCompleted (entries : List String) :
    List (StreamItem CallCompleted) → String → Report
  | [], printed => success (printed ++ lines entries)
  | .error error :: _, printed => failure printed error.message
  | .ok completed :: rest, printed =>
      ofCompleted entries rest
        (printed ++ "completed: " ++ completed.call ++ "\n")

/-- Stream a program of tasks. -/
def ofTaskStream (settings : Settings) (source : String) : Report :=
  let (channel, world) := (tasksEngine settings).stream source ⟨.fresh, []⟩
  ofCompleted world.state channel.drain.1 ""

end Tasks

section Any

variable (engine : Engine σ κ ω ε ρ)

/-- Parse a program and print its chain. -/
def ofParse (source : String) : Report :=
  match engine.parse source with
  | .ok chain => success (chain.toStored.pretty ++ "\n")
  | .error error => failure "" error.message

/-- Print a grammar. -/
def ofGrammar : GrammarForm → Report
  | .whole =>
      success (String.ofList (trimBlanks engine.grammar.toList) ++ "\n")
  | .rules => success (engine.rules ++ "\n")
  | .tool name =>
      let tool : GrammarTool :=
        ⟨name, "Emits a program in this DSL", engine.grammar, .lark⟩
      success (tool.request.pretty ++ "\n")

/-- Print the verbs of a language. -/
def ofVerbs : Report :=
  success (lines engine.verbs)

end Any

end Report

end VerbChain
