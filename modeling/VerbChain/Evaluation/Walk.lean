import VerbChain.Evaluation.Handler

namespace VerbChain

/-!
# Walking a chain

A walk takes the calls of a chain in order.  Before each call it looks at the
token, then for the call's handler; what the handler gives back goes to a sink,
which may end the walk.  The first thing that goes wrong ends it, too, with the
number of calls that were completed before a cancellation.
-/

/-- Whether a sink wants more. -/
inductive Flow where
  | proceed
  | stop
  deriving Repr, DecidableEq

/-- What receives the outputs of completed calls, with a state of its own. -/
abbrev Sink (τ σ ω : Type) :=
  Call → ω → τ → World σ → Flow × τ × World σ

namespace Evaluation

/-- Find a call's handler and run it on the call's bag of arguments. -/
def dispatch (registry : Registry σ κ ω) (call : Call) (context : κ)
    (world : World σ) : Except EngineError (Outcome κ ω) × World σ :=
  match registry.find? call.name with
  | none => (.error (.unknownCall call.name), world)
  | some handler =>
      match handler (.ofArguments call.arguments) context world with
      | (.error error, next) => (.error (.handler call.name error), next)
      | (.ok outcome, next) => (.ok outcome, next)

/-- Walk calls after a number of completed ones. -/
def walkFrom (registry : Registry σ κ ω) (sink : Sink τ σ ω) :
    (completed : Nat) → κ → List Call → τ → World σ →
      Except EngineError Nat × τ × World σ
  | completed, _, [], received, world => (.ok completed, received, world)
  | completed, context, call :: rest, received, world =>
      if world.token.isCancelled then
        (.error (.cancelled completed), received, world)
      else
        match dispatch registry call context world with
        | (.error error, next) => (.error error, received, next)
        | (.ok outcome, next) =>
            match sink call outcome.output received next with
            | (.stop, received, next) => (.ok (completed + 1), received, next)
            | (.proceed, received, next) =>
                walkFrom registry sink (completed + 1)
                  (outcome.context.getD context) rest received next

/-- Walk a chain from the start of a convention. -/
def walk (convention : Convention κ ω ε) (registry : Registry σ κ ω)
    (sink : Sink τ σ ω) (chain : Chain) (received : τ) (world : World σ) :
    Except EngineError Nat × τ × World σ :=
  walkFrom registry sink 0 convention.start chain.calls received world

/-- The sink that keeps every output. -/
def keeping : Sink (List ω) σ ω :=
  fun _ output received world => (.proceed, received ++ [output], world)

/-- Evaluate a chain to the outputs of its calls, or to the first error. -/
def interpret (convention : Convention κ ω ε) (registry : Registry σ κ ω)
    (chain : Chain) (world : World σ) :
    Except EngineError (List ω) × World σ :=
  match walk convention registry keeping chain [] world with
  | (.ok _, outputs, next) => (.ok outputs, next)
  | (.error error, _, next) => (.error error, next)

end Evaluation

end VerbChain
