import VerbChain.Plan.Execution

namespace VerbChain

/-!
# Rehearsing a plan

An executor that carries out nothing: it keeps every action it is given, and
cancels or fails at the kinds of actions it is told to.
-/

/-- At which kinds of actions a rehearsal goes wrong. -/
structure Rehearsal where
  cancelOn : Option String
  failures : List (String × ExecutorError)

/-- Keep an action, then cancel, then fail, each if told to at its kind. -/
def Rehearsal.executor (rehearsal : Rehearsal) : Executor (List Action) :=
  fun action world =>
    let next : World (List Action) :=
      { token :=
          if rehearsal.cancelOn = some action.kind then world.token.cancel
          else world.token
        state := world.state ++ [action] }
    match rehearsal.failures.lookup action.kind with
    | some error => (.error error, next)
    | none => (.ok (), next)

end VerbChain
