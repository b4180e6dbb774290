import VerbChain.Engine
import VerbChain.Language.Music
import VerbChain.Proofs.Evaluation.Reach
import VerbChain.Proofs.Stream.Publication

namespace VerbChain

/-!
# Compiling a chain in parts

A chain may be cut between any two of its calls.  Evaluating it is evaluating
the part in front and then, from the context that it leaves, the part behind;
when the part in front fails, the part behind does not matter.  Only a
cancellation counts calls, and it counts those in front, too.

Handlers that are functions of their arguments and their context leave the
world as it is, so each part can be compiled by itself.
-/

/-- An error as it is behind a number of completed calls. -/
def EngineError.behind (completed : Nat) : EngineError → EngineError
  | .cancelled count => .cancelled (completed + count)
  | error => error

private theorem EngineError.behind_behind
    (error : EngineError)
    (first second : Nat) :
    (error.behind second).behind first = error.behind (first + second) := by
  cases error <;> simp [behind, Nat.add_assoc]

/-- Handlers are functions of their arguments and their context. -/
def Registry.Computes (registry : Registry σ Context (List Action)) : Prop :=
  ∀ verb handler, registry.find? verb = some handler →
    ∃ compute, handler = Handler.computing compute

namespace Registry.Computes

theorem empty : Registry.Computes (σ := σ) Table.empty := by
  intro verb handler found
  cases found

/-- One more handler that computes. -/
theorem insert
    {registry : Registry σ Context (List Action)}
    (computes : registry.Computes)
    (verb : String)
    (compute :
      Bag → Context → Except HandlerError (Outcome Context (List Action))) :
    Registry.Computes (Table.insert registry verb (.computing compute)) := by
  intro other handler found
  rw [Table.find?_insert] at found
  split at found
  · cases found
    exact ⟨compute, rfl⟩
  · exact computes other handler found

/-- The functional verbs only compute, wherever they are registered. -/
theorem withFunctional
    {registry : Registry σ Context (List Action)}
    (computes : registry.Computes) :
    Registry.Computes (registry.withFunctional Registry.functionalVerb) :=
  ((((computes.insert _ _).insert _ _).insert _ _).insert _ _).insert _ _

end Registry.Computes

theorem Music.registry_computes :
    (Music.registry : Registry σ Context (List Action)).Computes :=
  (((Registry.Computes.empty.insert "track" track).insert "add_clip"
    addClip).insert "mute" mute).withFunctional

namespace Evaluation

/-- The context that calls leave, up to the first that fails. -/
def contextBehind (registry : Registry σ κ ω) : κ → List Call → World σ → κ
  | context, [], _ => context
  | context, call :: rest, world =>
      match dispatch registry call context world with
      | (.ok outcome, next) =>
          contextBehind registry (outcome.context.getD context) rest next
      | (.error _, _) => context

variable {registry : Registry σ κ ω}

theorem contextBehind_of_completesAll
    {start final : Moment κ (List ω) σ}
    {done : List Call}
    {deeds : List (Deed κ ω)}
    (all : CompletesAll registry keeping start done deeds final) :
    contextBehind registry start.context done start.world = final.context := by
  induction all with
  | nil moment => rfl
  | cons first others inductionHypothesis =>
      cases first with
      | proceed live found ran delivered =>
          cases delivered
          rw [← inductionHypothesis]
          simp [contextBehind, dispatch, found, ran]

/--
What was completed and kept before stays in front: walking on gives the outputs
and the answer that walking from here gives, counted on.
-/
theorem walkFrom_keeping
    (completed : Nat)
    (context : κ)
    (calls : List Call)
    (received : List ω)
    (world : World σ) :
    walkFrom registry keeping completed context calls received world =
      match walkFrom registry keeping 0 context calls [] world with
      | (.ok count, outputs, next) =>
          (.ok (completed + count), received ++ outputs, next)
      | (.error error, outputs, next) =>
          (.error (error.behind completed), received ++ outputs, next) := by
  induction calls generalizing completed context received world with
  | nil => simp [walkFrom]
  | cons call rest inductionHypothesis =>
      cases cancelled : world.token.isCancelled with
      | true => simp [walkFrom, cancelled, EngineError.behind]
      | false =>
          cases found : registry.find? call.name with
          | none => simp [walkFrom, cancelled, dispatch, found, EngineError.behind]
          | some handler =>
              rcases ran : handler (.ofArguments call.arguments) context world
                with ⟨answer, next⟩
              cases answer with
              | error cause =>
                  simp [walkFrom, cancelled, dispatch, found, ran,
                    EngineError.behind]
              | ok outcome =>
                  simp only [walkFrom, cancelled, dispatch, found, ran,
                    keeping, Bool.false_eq_true, if_false]
                  rw [inductionHypothesis, inductionHypothesis (0 + 1)]
                  rcases walkFrom registry keeping 0
                    (outcome.context.getD context) rest [] next
                    with ⟨answer, outputs, last⟩
                  cases answer with
                  | ok count => simp [Nat.add_assoc]
                  | error error => simp [EngineError.behind_behind]

/-- Evaluating a chain is evaluating its parts, one behind the other. -/
theorem interpret_append
    (convention : Convention κ ω ε)
    (front back : List Call)
    (world : World σ) :
    interpret convention registry ⟨front ++ back⟩ world =
      match interpret convention registry ⟨front⟩ world with
      | (.error error, next) => (.error error, next)
      | (.ok outputs, next) =>
          match interpret
              { convention with
                start := contextBehind registry convention.start front world }
              registry ⟨back⟩ next with
          | (.ok more, last) => (.ok (outputs ++ more), last)
          | (.error error, last) => (.error (error.behind front.length), last)
      := by
  rcases completesAll_or_fails convention registry front world with
    ⟨deeds, final, all⟩ | ⟨done, call, rest, deeds, moment, error, last,
      received, next, rfl, before, halts⟩
  · have left : contextBehind registry convention.start front world =
        final.context :=
      contextBehind_of_completesAll all
    rw [interpret_of_completesAll all, left]
    simp only [interpret, walk]
    rw [walkFrom_of_completesAll 0 back all, walkFrom_keeping, Nat.zero_add]
    rcases walkFrom registry keeping 0 final.context back [] final.world
      with ⟨answer, outputs, last⟩
    cases answer <;> rfl
  · have failed := interpret_of_halts before halts rest
    rw [failed]
    exact interpret_append_of_error failed back

end Evaluation

section Computing

variable {registry : Registry σ Context (List Action)}

/-- Handlers that compute leave the world to the calls that come next. -/
theorem CompletesAll.world_of_computes
    {start final : Moment Context (List (List Action)) σ}
    {done : List Call}
    {deeds : List (Deed Context (List Action))}
    (computes : registry.Computes)
    (all : CompletesAll registry Evaluation.keeping start done deeds final) :
    final.world = start.world := by
  induction all with
  | nil moment => rfl
  | cons first others inductionHypothesis =>
      rw [inductionHypothesis]
      cases first with
      | proceed live found ran delivered =>
          cases delivered
          obtain ⟨compute, rfl⟩ := computes _ _ found
          exact (congrArg Prod.snd ran).symm

/-- Under a live token, a call that fails leaves the world and counts none. -/
theorem Halts.world_of_computes
    {call : Call}
    {moment : Moment Context (List (List Action)) σ}
    {error : EngineError}
    {deeds : List (Deed Context (List Action))}
    {received : List (List Action)}
    {next : World σ}
    {completed : Nat}
    (computes : registry.Computes)
    (live : moment.world.token.isCancelled = false)
    (halts :
      Halts registry Evaluation.keeping completed call moment (.error error)
        deeds received next) :
    next = moment.world ∧ ∀ count, error.behind count = error := by
  cases halts with
  | cancelled cancelled =>
      rw [live] at cancelled
      cases cancelled
  | unknown _ missing => exact ⟨rfl, fun _ => rfl⟩
  | failed _ found ran =>
      obtain ⟨compute, rfl⟩ := computes _ _ found
      exact ⟨(congrArg Prod.snd ran).symm, fun _ => rfl⟩

theorem Evaluation.interpret_of_computes
    (computes : registry.Computes)
    (convention : Convention Context (List Action) ε)
    (chain : Chain)
    {world : World σ}
    (live : world.token.isCancelled = false) :
    ∃ answer,
      interpret convention registry chain world = (answer, world) ∧
        ∀ error, answer = .error error →
          ∀ count, error.behind count = error := by
  obtain ⟨calls⟩ := chain
  rcases completesAll_or_fails convention registry calls world with
    ⟨deeds, final, all⟩ | ⟨done, call, rest, deeds, moment, error, last,
      received, next, rfl, before, halts⟩
  · refine ⟨.ok final.received, ?_, ?_⟩
    · rw [interpret_of_completesAll all, all.world_of_computes computes]
    · intro error same
      cases same
  · have same := before.world_of_computes computes
    have liveStill : moment.world.token.isCancelled = false := by
      rw [same]
      exact live
    obtain ⟨left, uncounted⟩ := halts.world_of_computes computes liveStill
    refine ⟨.error error, ?_, ?_⟩
    · rw [interpret_of_halts before halts rest, left, same]
    · intro other equal
      cases equal
      exact uncounted

end Computing

namespace PlanningEngine

/-- The same engine with evaluations that start from a context. -/
def startingFrom (engine : PlanningEngine σ ρ) (context : Context) :
    PlanningEngine σ ρ :=
  { engine with convention := { engine.convention with start := context } }

/-- Compile calls by themselves, under a token of their own. -/
def compileCalls (engine : PlanningEngine σ ρ) (calls : List Call)
    (state : σ) : Except EngineError Plan :=
  (engine.compileChain ⟨calls⟩ ⟨.fresh, state⟩).1

/-- The context that calls leave when they are compiled by themselves. -/
def contextBehind (engine : PlanningEngine σ ρ) (calls : List Call)
    (state : σ) : Context :=
  Evaluation.contextBehind engine.registry engine.convention.start calls
    ⟨.fresh, state⟩

variable {engine : PlanningEngine σ ρ}

theorem compileCalls_append
    (computes : engine.registry.Computes)
    (front back : List Call)
    (state : σ) :
    engine.compileCalls (front ++ back) state =
      match engine.compileCalls front state with
      | .error error => .error error
      | .ok plan =>
          ((engine.startingFrom
            (engine.contextBehind front state)).compileCalls back state).map
              (plan ++ ·) := by
  have live : (World.mk .fresh state).token.isCancelled = false := rfl
  obtain ⟨answer, evaluated, _⟩ :=
    Evaluation.interpret_of_computes computes engine.convention ⟨front⟩ live
  obtain ⟨later, evaluatedBehind, uncounted⟩ :=
    Evaluation.interpret_of_computes computes
      { engine.convention with start := engine.contextBehind front state }
      ⟨back⟩ live
  have whole :
      Evaluation.interpret engine.convention engine.registry
        ⟨front ++ back⟩ ⟨.fresh, state⟩ = _ :=
    Evaluation.interpret_append engine.convention front back ⟨.fresh, state⟩
  rw [evaluated] at whole
  have others :
      (engine.startingFrom (engine.contextBehind front state)).compileCalls
        back state = later.map List.flatten := by
    rw [compileCalls, compileChain_eq]
    exact congrArg (fun result => result.1.map List.flatten) evaluatedBehind
  rw [others, compileCalls, compileCalls, compileChain_eq, compileChain_eq,
    whole, evaluated]
  cases answer with
  | error error => rfl
  | ok outputs =>
      simp only [contextBehind] at evaluatedBehind
      simp only [evaluatedBehind]
      cases later with
      | error error =>
          show Except.error (error.behind front.length) = Except.error error
          rw [uncounted error rfl]
      | ok more => simp [Except.map]

/--
Where handlers are functions of their arguments and their context, a chain is
compiled to the plan of a part in front, followed by what compiling the other
calls from the context left there gives; what fails in front fails the whole.
So the plan of each part in front is in front of the plan.
-/
theorem compiles_in_parts
    (computes : engine.registry.Computes)
    (front back : List Call)
    (state : σ) :
    (∀ error,
      engine.compileCalls front state = .error error →
        engine.compileCalls (front ++ back) state = .error error) ∧
      (∀ plan,
        engine.compileCalls front state = .ok plan →
          engine.compileCalls (front ++ back) state =
            ((engine.startingFrom
              (engine.contextBehind front state)).compileCalls back state).map
                (plan ++ ·)) ∧
      ∀ whole,
        engine.compileCalls (front ++ back) state = .ok whole →
          ∃ plan, engine.compileCalls front state = .ok plan ∧
            plan <+: whole := by
  have parts := compileCalls_append computes front back state
  refine ⟨?_, ?_, ?_⟩
  · intro error failed
    rw [parts, failed]
  · intro plan compiled
    rw [parts, compiled]
  · intro whole compiled
    rw [parts] at compiled
    cases inFront : engine.compileCalls front state with
    | error error =>
        rw [inFront] at compiled
        cases compiled
    | ok plan =>
        rw [inFront] at compiled
        cases behind : (engine.startingFrom
            (engine.contextBehind front state)).compileCalls back state with
        | error error =>
            rw [behind] at compiled
            cases compiled
        | ok more =>
            rw [behind] at compiled
            cases compiled
            exact ⟨plan, rfl, List.prefix_append plan more⟩

/--
A track, and a mute that is compiled from the context behind it: the mute is of
that track.
-/
theorem compiles_in_parts_tracks :
    let engine : PlanningEngine Unit Unit :=
      ⟨.planning, "", fun _ => .error (.ofBackend ""), Music.registry,
        fun _ device => (.ok (), device), .standard⟩
    let track : Call := ⟨"track", [.named "name" (.string "Drums")]⟩
    let mute : Call := ⟨"mute", []⟩
    engine.registry.Computes ∧
      ∃ plan more,
        engine.compileCalls [track] () = .ok plan ∧
          engine.compileCalls ([track] ++ [mute]) () = .ok (plan ++ more) ∧
          more.map (·.text? "track") = [some "Drums"] := by
  intro engine track mute
  have computes : engine.registry.Computes := Music.registry_computes
  obtain ⟨_, splits, _⟩ := compiles_in_parts computes [track] [mute] ()
  refine ⟨computes, _, _, rfl, splits _ rfl, ?_⟩
  decide +kernel

end PlanningEngine

end VerbChain
