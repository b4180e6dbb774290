import VerbChain.Evaluation.Handler
import VerbChain.Json.Writing

namespace VerbChain.Scripted

/-!
# Languages made of scripts

A script is a list of steps that stand for what handlers do: look at
arguments, write to a log, describe actions, change the context, cancel, fail.
A language of scripts shows how an engine treats any handler without one being
written.
-/

/-- One thing that a handler does. -/
inductive Step where
  /-- Read an argument, and fail if that fails. -/
  | need (read : Bag → Except ArgumentError Unit)
  /-- Fail with a message. -/
  | fail (text : String)
  /-- Fail with an error of its own. -/
  | other (text : String)
  /-- Break down. -/
  | crash
  /-- Cancel the token that the language holds. -/
  | cancel
  /-- Write a text to the log. -/
  | log (text : String)
  /-- Write the arguments to the log. -/
  | dump
  /-- Add an action with the arguments as its payload. -/
  | emit (kind : String)
  /-- Add an action with what the context holds under a key. -/
  | see (kind key : String)
  /-- Put a value into the context. -/
  | set (key : String) (value : Json)
  /-- Put an argument into the context. -/
  | copy (key argument : String)
  /-- Take a key out of the context. -/
  | delete (key : String)
  /-- Start a new context. -/
  | clear

/-- What the handlers of a language of scripts share. -/
structure State where
  log : List String
  /-- Whether the token that is held is the one evaluations run under. -/
  holdsOwn : Bool
  /-- Whether the token that is held has been cancelled by a handler. -/
  cancelled : Bool

namespace State

/-- Nothing written and nothing cancelled. -/
def start : State := ⟨[], true, false⟩

end State

/-- The actions a script has described and the context it leaves. -/
structure Gathered where
  actions : List Action
  context : Option Context

/-- Write a line to the log. -/
def write (world : World State) (line : String) : World State :=
  { world with state := { world.state with log := world.state.log ++ [line] } }

/-- Cancel the token that is held. -/
def cancelHeld (world : World State) : World State where
  token := if world.state.holdsOwn then world.token.cancel else world.token
  state := { world.state with cancelled := true }

/-- Do one step. -/
def Step.run (step : Step) (bag : Bag) (context : Context)
    (gathered : Gathered) (world : World State) :
    Except HandlerError Gathered × World State :=
  let adding (action : Action) : Gathered :=
    { gathered with actions := gathered.actions ++ [action] }
  let leaving (next : Context) : Gathered :=
    { gathered with context := some next }
  let current := gathered.context.getD context
  match step with
  | .need read =>
      match read bag with
      | .ok () => (.ok gathered, world)
      | .error error => (.error (.argument error), world)
  | .fail text => (.error (.message text), world)
  | .other text => (.error (.other text), world)
  | .crash => (.error .crash, world)
  | .cancel => (.ok gathered, cancelHeld world)
  | .log text => (.ok gathered, write world text)
  | .dump =>
      (.ok gathered, write world (Json.object bag.toPayload.entries).compact)
  | .emit kind => (.ok (adding ⟨kind, bag.toPayload⟩), world)
  | .see kind key =>
      (.ok (adding ((Action.bare kind).put key
        ((context.get? key).getD .null))), world)
  | .set key value => (.ok (leaving (current.put key value)), world)
  | .copy key argument =>
      match bag.require argument with
      | .ok value => (.ok (leaving (current.put key value.toPayload)), world)
      | .error error => (.error (.argument error), world)
  | .delete key => (.ok (leaving (current.without key)), world)
  | .clear => (.ok (leaving .empty), world)

/-- Do steps up to the first that fails. -/
def run (bag : Bag) (context : Context) :
    List Step → Gathered → World State →
      Except HandlerError Gathered × World State
  | [], gathered, world => (.ok gathered, world)
  | step :: rest, gathered, world =>
      match step.run bag context gathered world with
      | (.ok next, world) => run bag context rest next world
      | (.error error, world) => (.error error, world)

/-- The planning handler of a script. -/
def planning (steps : List Step) : PlanningHandler State :=
  fun bag context world =>
    match run bag context steps ⟨[], none⟩ world with
    | (.ok gathered, world) =>
        (.ok ⟨gathered.actions, gathered.context⟩, world)
    | (.error error, world) => (.error error, world)

/-- The direct handler of a script. -/
def direct (steps : List Step) : DirectHandler State :=
  fun bag _ world =>
    match run bag .empty steps ⟨[], none⟩ world with
    | (.ok _, world) => (.ok ⟨(), none⟩, world)
    | (.error error, world) => (.error error, world)

/-- Write what a functional verb was given to the log. -/
def functional (call : FunctionalCall) (world : World State) :
    Except HandlerError Unit × World State :=
  let shown (value : Option Value) := (value.map Value.render).getD "-"
  let line := call.verb.name ++ "[" ++ ",".intercalate call.functions ++
    "] data=" ++ shown call.data ++ " initial=" ++ shown call.initial
  (.ok (), write world line)

end VerbChain.Scripted
