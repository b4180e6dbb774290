import VerbChain.Action
import VerbChain.Cancellation
import VerbChain.Context
import VerbChain.Error
import VerbChain.Functional
import VerbChain.Text.Diagnostic

namespace VerbChain

/-!
# Handlers

A handler is what a verb does with its arguments.  It sees the context that
earlier calls left and the world, and may change the world even when it fails.
There are two conventions: a direct handler acts at once and leaves nothing, a
planning handler describes its effects as actions and may leave a new context.
-/

/-- What a program runs in: a token to cancel it, and the state of its verbs. -/
structure World (σ : Type) where
  token : CancelToken
  state : σ

/-- What a completed call gives back; no context keeps the one there was. -/
structure Outcome (κ ω : Type) where
  output : ω
  context : Option κ

/-- What a verb does with a bag of arguments, in a context and a world. -/
abbrev Handler (σ κ ω : Type) :=
  Bag → κ → World σ → Except HandlerError (Outcome κ ω) × World σ

/-- A handler that acts at once. -/
abbrev DirectHandler (σ : Type) := Handler σ Unit Unit

/-- A handler that describes its effects. -/
abbrev PlanningHandler (σ : Type) := Handler σ Context (List Action)

/-- The report that a call has been completed. -/
structure CallCompleted where
  call : String
  deriving Repr, DecidableEq

/-- What evaluations start from, and the events that a call publishes. -/
structure Convention (κ ω ε : Type) where
  start : κ
  events : Call → ω → List ε

namespace Convention

/-- Direct calls publish that they were completed. -/
def direct : Convention Unit Unit CallCompleted where
  start := ()
  events call _ := [⟨call.name⟩]

/-- Planning calls publish their actions. -/
def planning : Convention Context (List Action) Action where
  start := .empty
  events _ actions := actions

end Convention

namespace Handler

/-- A handler that acts on the state of its verbs, if it does not fail. -/
def acting (act : Bag → σ → Except HandlerError σ) : DirectHandler σ :=
  fun bag _ world =>
    match act bag world.state with
    | .ok state => (.ok ⟨(), none⟩, { world with state := state })
    | .error error => (.error error, world)

/-- A handler that only computes its outcome. -/
def computing
    (compute :
      Bag → Context → Except HandlerError (Outcome Context (List Action))) :
    PlanningHandler σ :=
  fun bag context world => (compute bag context, world)

end Handler

/-- Handlers by the name of their verb. -/
abbrev Registry (σ κ ω : Type) := Table (Handler σ κ ω)

namespace Registry

/-- Put one action in an outcome that keeps the context. -/
def oneAction (action : Action) : Outcome Context (List Action) :=
  ⟨[action], none⟩

/-- A functional verb that describes its call as one action. -/
def functionalVerb (verb : FunctionalVerb) : PlanningHandler σ :=
  Handler.computing fun bag _ =>
    match FunctionalCall.ofBag verb bag with
    | .ok call => .ok (oneAction call.toAction)
    | .error error => .error (.argument error)

/-- A functional verb that hands its call on. -/
def functionalMethod
    (act : FunctionalCall → World σ → Except HandlerError Unit × World σ)
    (verb : FunctionalVerb) : DirectHandler σ :=
  fun bag _ world =>
    match FunctionalCall.ofBag verb bag with
    | .ok call =>
        match act call world with
        | (.ok (), next) => (.ok ⟨(), none⟩, next)
        | (.error error, next) => (.error error, next)
    | .error error => (.error (.argument error), world)

/-- Register the functional verbs, each by a handler made for it. -/
def withFunctional (registry : Registry σ κ ω)
    (handler : FunctionalVerb → Handler σ κ ω) : Registry σ κ ω :=
  registry.insertMany
    (FunctionalVerb.all.map fun verb => (verb.name, handler verb))

/-- A registry as diagnostics show it: the names of its verbs. -/
def diagnostic (registry : Registry σ κ ω) : String :=
  "Registry \x7b handlers: " ++ diagnosticList registry.keys ++ " \x7d"

end Registry

end VerbChain
