import VerbChain.Evaluation.Handler

namespace VerbChain

/-!
# Carrying out a plan

An executor carries out one action at a time.  A plan is carried out in order
up to the first action that fails or in front of which the token is found
cancelled.
-/

/-- What carries out actions, with a state of its own. -/
abbrev Executor (ρ : Type) :=
  Action → World ρ → Except ExecutorError Unit × World ρ

namespace Plan

/-- Carry out actions after a number of completed ones. -/
def executeFrom (executor : Executor ρ) :
    (completed : Nat) → Plan → World ρ → Except EngineError Nat × World ρ
  | completed, [], world => (.ok completed, world)
  | completed, action :: rest, world =>
      if world.token.isCancelled then (.error (.cancelled completed), world)
      else
        match executor action world with
        | (.error error, next) => (.error (.executor action.kind error), next)
        | (.ok (), next) => executeFrom executor (completed + 1) rest next

/-- Carry out a plan; the answer is how many actions were carried out. -/
def execute (executor : Executor ρ) (plan : Plan) (world : World ρ) :
    Except EngineError Nat × World ρ :=
  executeFrom executor 0 plan world

end Plan

namespace Executor

/-- The executor that keeps every action. -/
def recording : Executor (List Action) :=
  fun action world =>
    (.ok (), { world with state := world.state ++ [action] })

end Executor

end VerbChain
