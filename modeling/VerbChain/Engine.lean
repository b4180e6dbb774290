import VerbChain.Chain.Reading
import VerbChain.Grammar.Cleaning
import VerbChain.Grammar.Standard
import VerbChain.Plan.Printing
import VerbChain.Stream.Outlet
import VerbChain.Text.Diagnostic

namespace VerbChain

/-!
# Engines

An engine holds together what a language needs: a grammar to show, a parser,
the handlers of its verbs, an executor for its plans and its settings.  An
engine of direct handlers executes programs.  An engine of planning handlers
compiles them into plans and carries plans out; running a program is compiling
it whole and then carrying out the plan, so a program that does not compile
has no effect.
-/

/-- A language that is ready to run. -/
structure Engine (σ κ ω ε ρ : Type) where
  convention : Convention κ ω ε
  grammar : String
  parser : String → Except ParseError Chain
  registry : Registry σ κ ω
  executor : Executor ρ
  settings : Settings

/-- An engine whose verbs act at once. -/
abbrev DirectEngine (σ : Type) := Engine σ Unit Unit CallCompleted Unit

/-- An engine whose verbs describe their effects. -/
abbrev PlanningEngine (σ ρ : Type) := Engine σ Context (List Action) Action ρ

namespace Engine

/-- The names of all verbs in order. -/
def verbs (engine : Engine σ κ ω ε ρ) : List String :=
  engine.registry.keys

/-- The grammar without directives and blank lines. -/
def rules (engine : Engine σ κ ω ε ρ) : String :=
  Grammar.clean engine.grammar

/-- An engine as diagnostics show it: its verbs and its settings. -/
def diagnostic (engine : Engine σ κ ω ε ρ) : String :=
  "Engine \x7b handlers: " ++ diagnosticList engine.verbs ++ ", config: " ++
    engine.settings.diagnostic ++ ", .. \x7d"

/-- Read a program. -/
def parse (engine : Engine σ κ ω ε ρ) (source : String) :
    Except EngineError Chain :=
  match engine.parser source with
  | .ok chain => .ok chain
  | .error error => .error (.parse error)

/-- Evaluate a chain to the outputs of its calls. -/
def interpret (engine : Engine σ κ ω ε ρ) (chain : Chain)
    (world : World σ) : Except EngineError (List ω) × World σ :=
  Evaluation.interpret engine.convention engine.registry chain world

/-- Produce the events of a program into an outlet. -/
def produce (engine : Engine σ κ ω ε ρ) (source : String)
    (outlet : Outlet ε) (world : World σ) : Production ε × World σ :=
  match engine.parse source with
  | .error error => (.ofError error outlet, world)
  | .ok chain =>
      Production.ofChain engine.convention engine.registry chain outlet world

/-- The channel of a program's events, for a consumer that takes them all. -/
def stream (engine : Engine σ κ ω ε ρ) (source : String)
    (world : World σ) : Channel ε × World σ :=
  let (production, next) := engine.produce source (.openFor none) world
  (production.channel engine.settings.streamCapacity, next)

end Engine

namespace DirectEngine

/-- Execute a chain. -/
def executeChain (engine : DirectEngine σ) (chain : Chain)
    (world : World σ) : Except EngineError Unit × World σ :=
  match engine.interpret chain world with
  | (.ok _, next) => (.ok (), next)
  | (.error error, next) => (.error error, next)

/-- Execute a program. -/
def execute (engine : DirectEngine σ) (source : String)
    (world : World σ) : Except EngineError Unit × World σ :=
  match engine.parse source with
  | .ok chain => engine.executeChain chain world
  | .error error => (.error error, world)

end DirectEngine

namespace PlanningEngine

/-- Compile a chain into a plan. -/
def compileChain (engine : PlanningEngine σ ρ) (chain : Chain)
    (world : World σ) : Except EngineError Plan × World σ :=
  match engine.interpret chain world with
  | (.ok outputs, next) => (.ok outputs.flatten, next)
  | (.error error, next) => (.error error, next)

/--
Compile a program into a plan, under a token of its own.  No caller holds that
token, but every handler is given it with its world, and one that cancels it
stops the compilation.
-/
def compile (engine : PlanningEngine σ ρ) (source : String) (state : σ) :
    Except EngineError Plan × σ :=
  match engine.parse source with
  | .ok chain =>
      let (answer, next) := engine.compileChain chain ⟨.fresh, state⟩
      (answer, next.state)
  | .error error => (.error error, state)

/-- Carry out a plan by an executor. -/
def executeWith (executor : Executor ρ) (plan : Plan) (device : World ρ) :
    Except EngineError Unit × World ρ :=
  match plan.execute executor device with
  | (.ok _, next) => (.ok (), next)
  | (.error error, next) => (.error error, next)

/-- Carry out a plan by the engine's own executor. -/
def executePlan (engine : PlanningEngine σ ρ) (plan : Plan)
    (device : World ρ) : Except EngineError Unit × World ρ :=
  executeWith engine.executor plan device

/--
Run a program: compile all of it, then carry out the plan under the token that
compiling left.
-/
def run (engine : PlanningEngine σ ρ) (source : String) (world : World σ)
    (device : ρ) : Except EngineError Unit × World σ × ρ :=
  match engine.parse source with
  | .error error => (.error error, world, device)
  | .ok chain =>
      match engine.compileChain chain world with
      | (.error error, next) => (.error error, next, device)
      | (.ok plan, next) =>
          let (answer, last) := engine.executePlan plan ⟨next.token, device⟩
          (answer, { next with token := last.token }, last.state)

end PlanningEngine

end VerbChain
