import VerbChain.Proofs.Stream.Publication
import VerbChain.Stream.Session

namespace VerbChain

/-!
# The script of a program

Played into an outlet, the script of a program is the producer of the program,
with the same sends, the same ending and the same world.  Handlers that record
themselves record just the dispatches of the play, so a play tells which
handlers a producer invokes and on what.
-/

/-- The deed of a dispatch: its handler is invoked. -/
def Dispatch.deed (dispatch : Dispatch σ κ) : Deed κ ω :=
  .invoked dispatch.call.name (.ofArguments dispatch.call.arguments)
    dispatch.context

/-- What the handler of a dispatch answers, and the world it leaves. -/
def Dispatch.answer (registry : Registry σ κ ω) (dispatch : Dispatch σ κ) :
    Except EngineError (Outcome κ ω) × World σ :=
  Evaluation.dispatch registry dispatch.call dispatch.context dispatch.world

/--
The handlers of another registry answer as those of the first.  The other's
world is a view of the first one's and of the dispatches there have been.
-/
structure Registry.Follows (registry : Registry σ κ ω)
    (other : Registry τ κ ω)
    (view : List (Dispatch σ κ) → World σ → World τ) : Prop where
  token :
    ∀ before world, (view before world).token = world.token
  missing :
    ∀ verb, registry.find? verb = none → other.find? verb = none
  answer :
    ∀ dispatch handler,
      registry.find? dispatch.call.name = some handler →
        ∀ before,
          Evaluation.dispatch other dispatch.call dispatch.context
              (view before dispatch.world) =
            ((dispatch.answer registry).1,
              view (before ++ [dispatch]) (dispatch.answer registry).2)

/-- Handlers answer as themselves. -/
theorem Registry.follows_self (registry : Registry σ κ ω) :
    registry.Follows registry fun _ world => world where
  token _ _ := rfl
  missing _ missing := missing
  answer _ _ _ _ := rfl

/-- Handlers that record themselves answer as before. -/
theorem Registry.follows_recording (registry : Registry σ κ ω) :
    registry.Follows registry.recording fun before world =>
      world.logging (before.map Dispatch.deed) where
  token _ _ := rfl
  missing verb missing := by
    rw [find?_recording, missing]
    rfl
  answer dispatch handler found before := by
    rcases ran : handler (.ofArguments dispatch.call.arguments)
        dispatch.context dispatch.world with ⟨answer, next⟩
    have recorded :=
      Handler.recording_of_eq ran dispatch.call.name
        (before.map Dispatch.deed)
    rw [List.map_append]
    unfold Dispatch.answer Evaluation.dispatch
    rw [find?_recording_of_eq found]
    simp only [found, ran, recorded]
    cases answer <;> rfl

namespace Production

/-- What a walk into an outlet leaves of its producer. -/
def ofWalked (walked : Except EngineError Nat × Outlet ε × World σ) :
    Production ε × World σ :=
  (ofWalk walked.1 walked.2.1, walked.2.2)

end Production

namespace Script

theorem play_ofError
    (error : EngineError)
    (world : World σ)
    (outlet : Outlet ε) :
    (ofError error world : Script σ κ ε).play outlet =
      ([], Production.ofError error outlet, world) := by
  rw [ofError, play, Production.ofError]
  rcases outlet.send (.error error) with ⟨sent, next⟩
  cases sent <;> rfl

theorem play_ofFailure
    (error : EngineError)
    (world : World σ)
    (outlet : Outlet ε) :
    (ofFailure error world : Script σ κ ε).play outlet =
      ([], Production.ofWalked (.error error, outlet, world)) := by
  unfold Production.ofWalked Production.ofWalk
  split
  · next same => cases same
  · next same =>
      cases same
      rfl
  · next other broken same =>
      cases same
      show _ = ([], Production.ofError error outlet, world)
      rw [← play_ofError, ofFailure]
      exact broken

/-- Events are sent as an outlet sends them. -/
theorem play_ofEvents
    (proceed stop : Script σ κ ε)
    (events : List ε)
    (outlet : Outlet ε) :
    (ofEvents proceed stop events).play outlet =
      match Outlet.sendEvents events outlet with
      | (.proceed, next) => proceed.play next
      | (.stop, next) => stop.play next := by
  induction events generalizing outlet with
  | nil => rfl
  | cons event rest inductionHypothesis =>
      rw [ofEvents, play, Outlet.sendEvents]
      rcases outlet.send (.ok event) with ⟨sent, next⟩
      cases sent with
      | true => exact inductionHypothesis next
      | false => rfl

section Walk

variable {registry : Registry σ κ ω} {other : Registry τ κ ω}
variable {view : List (Dispatch σ κ) → World σ → World τ}

/-- A script of calls is played as a registry that answers alike is walked. -/
theorem walkFrom_eq_play
    (follows : registry.Follows other view)
    (convention : Convention κ ω ε)
    (completed : Nat)
    (context : κ)
    (calls : List Call)
    (world : World σ)
    (outlet : Outlet ε)
    (before : List (Dispatch σ κ)) :
    Production.ofWalked
        (Evaluation.walkFrom other (Outlet.publishing convention.events)
          completed context calls outlet (view before world)) =
      match
        (ofCalls convention registry completed context calls world).play outlet
      with
      | (dispatches, production, next) =>
          (production, view (before ++ dispatches) next) := by
  induction calls generalizing completed context world outlet before with
  | nil =>
      rw [ofCalls, play]
      simp only [List.append_nil]
      rfl
  | cons call rest inductionHypothesis =>
      rw [ofCalls, Evaluation.walkFrom, follows.token]
      cases cancelled : world.token.isCancelled with
      | true =>
          simp only [↓reduceIte, play_ofFailure, List.append_nil]
          rfl
      | false =>
          simp only [Bool.false_eq_true, ↓reduceIte]
          cases found : registry.find? call.name with
          | none =>
              have missing := follows.missing call.name found
              simp only [Evaluation.dispatch, missing, play_ofFailure,
                List.append_nil]
              rfl
          | some handler =>
              have answered :=
                follows.answer ⟨call, context, world⟩ handler found before
              simp only [Dispatch.answer] at answered
              simp only [answered, play]
              rcases Evaluation.dispatch registry call context world
                with ⟨answer, next⟩
              cases answer with
              | error error =>
                  simp only [play_ofFailure]
                  rfl
              | ok outcome =>
                  simp only [play_ofEvents, Outlet.publishing]
                  rcases Outlet.sendEvents
                      (convention.events call outcome.output) outlet
                    with ⟨flow, sent⟩
                  cases flow with
                  | stop => rfl
                  | proceed =>
                      simp only [inductionHypothesis, List.append_assoc,
                        List.singleton_append]

end Walk

/-- The handlers that a script of calls invokes are those of first calls. -/
theorem calls_play_ofCalls
    (convention : Convention κ ω ε)
    (registry : Registry σ κ ω)
    (completed : Nat)
    (context : κ)
    (calls : List Call)
    (world : World σ)
    (outlet : Outlet ε) :
    ((ofCalls convention registry completed context calls world).play
        outlet).1.map Dispatch.call <+: calls := by
  induction calls generalizing completed context world outlet with
  | nil => exact List.nil_prefix
  | cons call rest inductionHypothesis =>
      rw [ofCalls]
      split
      · rw [play_ofFailure]
        exact List.nil_prefix
      · split
        · rw [play_ofFailure]
          exact List.nil_prefix
        · rw [play, List.map_cons]
          refine List.cons_prefix_cons.2 ⟨rfl, ?_⟩
          split
          · rw [play_ofFailure]
            exact List.nil_prefix
          · rw [play_ofEvents]
            split
            · exact inductionHypothesis ..
            · exact List.nil_prefix

end Script

namespace Engine

/-- The producer of a program plays the program's script. -/
theorem produce_eq_play
    (engine : Engine σ κ ω ε ρ)
    (source : String)
    (outlet : Outlet ε)
    (world : World σ) :
    engine.produce source outlet world =
      ((engine.script source world).play outlet).2 := by
  unfold produce script
  cases engine.parse source with
  | error error => rw [Script.play_ofError]
  | ok chain =>
      exact Script.walkFrom_eq_play engine.registry.follows_self _ 0 _ _ _ _ []

/-- Recording themselves, handlers record the dispatches of the play. -/
theorem produce_recording_eq_play
    (engine : Engine σ κ ω ε ρ)
    (source : String)
    (outlet : Outlet ε)
    (world : World σ) :
    engine.recording.produce source outlet (world.logging []) =
      match (engine.script source world).play outlet with
      | (dispatches, production, next) =>
          (production, next.logging (dispatches.map Dispatch.deed)) := by
  have parses : engine.recording.parse source = engine.parse source := rfl
  unfold produce script
  rw [parses]
  cases engine.parse source with
  | error error =>
      rw [Script.play_ofError]
      rfl
  | ok chain =>
      exact Script.walkFrom_eq_play engine.registry.follows_recording _ 0 _ _
        _ _ []

end Engine

end VerbChain
