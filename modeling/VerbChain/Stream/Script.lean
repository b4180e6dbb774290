import VerbChain.Engine

namespace VerbChain

/-!
# What the thread of a producer may do

A producer's thread invokes handlers and sends items, and goes on as each send
turns out.  The script of a program is all that may come of this, with both
outcomes of every send.  An outlet decides the sends of a script from one to
the next; the script is then played to its end.
-/

/-- A handler to invoke: for which call, in which context and world. -/
structure Dispatch (σ κ : Type) where
  call : Call
  context : κ
  world : World σ

/-- What a thread may do until it ends, and the world it leaves. -/
inductive Script (σ κ ε : Type) where
  | ended (ending : Ending) (world : World σ)
  | invoke (dispatch : Dispatch σ κ) (next : Script σ κ ε)
  | send (item : StreamItem ε) (taken refused : Script σ κ ε)

namespace Script

/-- Send an error, which is the last thing to do. -/
def ofError (error : EngineError) (world : World σ) : Script σ κ ε :=
  .send (.error error) (.ended .normal world) (.ended .normal world)

/-- What an error in a walk leaves to do, unless the handler broke down. -/
def ofFailure : EngineError → World σ → Script σ κ ε
  | .handler _ .crash, world => .ended .crashed world
  | error, world => ofError error world

/-- Send events up to the first that is refused. -/
def ofEvents (proceed stop : Script σ κ ε) : List ε → Script σ κ ε
  | [] => proceed
  | event :: rest => .send (.ok event) (ofEvents proceed stop rest) stop

/-- Walk calls after a number of completed ones. -/
def ofCalls (convention : Convention κ ω ε) (registry : Registry σ κ ω) :
    (completed : Nat) → κ → List Call → World σ → Script σ κ ε
  | _, _, [], world => .ended .normal world
  | completed, context, call :: rest, world =>
      if world.token.isCancelled then ofFailure (.cancelled completed) world
      else
        match registry.find? call.name with
        | none => ofFailure (.unknownCall call.name) world
        | some _ =>
            .invoke ⟨call, context, world⟩ <|
              match Evaluation.dispatch registry call context world with
              | (.error error, next) => ofFailure error next
              | (.ok outcome, next) =>
                  ofEvents
                    (ofCalls convention registry (completed + 1)
                      (outcome.context.getD context) rest next)
                    (.ended .normal next)
                    (convention.events call outcome.output)

/-- The handlers invoked, the sends and the world when an outlet decides. -/
def play : Script σ κ ε → Outlet ε →
    List (Dispatch σ κ) × Production ε × World σ
  | .ended ending world, outlet => ([], ⟨outlet, ending⟩, world)
  | .invoke dispatch next, outlet =>
      let (others, last) := next.play outlet
      (dispatch :: others, last)
  | .send item taken refused, outlet =>
      match outlet.send item with
      | (true, next) => taken.play next
      | (false, next) => refused.play next

end Script

/-- What the producer of a program may do. -/
def Engine.script (engine : Engine σ κ ω ε ρ) (source : String)
    (world : World σ) : Script σ κ ε :=
  match engine.parse source with
  | .error error => .ofError error world
  | .ok chain =>
      .ofCalls engine.convention engine.registry 0 engine.convention.start
        chain.calls world

end VerbChain
