import VerbChain.Evaluation.Handler

namespace VerbChain.Music

/-!
# A language of tracks and clips

`track` makes a track and leaves its name in the context; the clips and mutes
that follow are tagged with the track that was made last.  A clip does not
start before zero and has a positive length.
-/

/-- What a verb of the language computes. -/
abbrev Compute :=
  Bag → Context → Except HandlerError (Outcome Context (List Action))

/-- An argument error is an error of the handler that met it. -/
def argument (read : Except ArgumentError α) : Except HandlerError α :=
  read.mapError .argument

/-- An action with the track of the context, if one was made. -/
def tagged (action : Action) (context : Context) : Action :=
  match context.text? "track" with
  | some name => action.put "track" (.string name)
  | none => action

/-- Make a track, with a color if one is given. -/
def track : Compute := fun bag context => do
  let name ← argument (bag.text "name")
  let color ← argument (bag.optionalText "color")
  let action := ((Action.bare "create_track").put "name" (.string name)).put
    "color" (.string (color.getD ""))
  return ⟨[action], some (context.put "track" (.string name))⟩

/-- Put a clip on the current track. -/
def addClip : Compute := fun bag context => do
  let start ← argument (bag.number "start")
  let length ← argument (bag.number "length")
  if start.less .zero then
    throw (.message ("clip start must not be negative, got " ++
      String.ofList start.sourceText))
  if length.atMost .zero then
    throw (.message ("clip length must be positive, got " ++
      String.ofList length.sourceText))
  let startValue ← argument (bag.require "start")
  let lengthValue ← argument (bag.require "length")
  let action := ((Action.bare "add_clip").put "start" startValue.toPayload).put
    "length" lengthValue.toPayload
  return ⟨[tagged action context], none⟩

/-- Mute the current track. -/
def mute : Compute := fun _ context =>
  .ok ⟨[tagged (.bare "mute_track") context], none⟩

/-- The verbs of the language, the functional ones among them. -/
def registry : Registry σ Context (List Action) :=
  Registry.withFunctional
    (.ofList
      [("track", Handler.computing track),
        ("add_clip", Handler.computing addClip),
        ("mute", Handler.computing mute)])
    Registry.functionalVerb

end VerbChain.Music
