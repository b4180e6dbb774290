import VerbChain.Engine
import VerbChain.Language.Music
import VerbChain.Proofs.Evaluation.Account

namespace VerbChain

/-!
# How a context reaches a handler

A handler receives a context, and its outcome may carry another one.  Handlers
are made to record both, in a log beside the state that none of them sees.  In
one evaluation the context received is the one that the latest outcome carried,
and the empty one before any outcome carried one.

The log and the state outlive an evaluation, so a sequence of evaluations on
one engine shows what one of them leaves for the next: a state, and never a
context.
-/

/-- A handler at work: how it was called, what it received and its answer. -/
structure Encounter (κ ω : Type) where
  verb : String
  bag : Bag
  context : κ
  answer : Except HandlerError (Outcome κ ω)

namespace Encounter

/-- The verb and the arguments of an encounter. -/
def request (encounter : Encounter κ ω) : String × Bag :=
  (encounter.verb, encounter.bag)

/-- The context that the outcome carries, if there is such an outcome. -/
def carried? (encounter : Encounter κ ω) : Option κ :=
  match encounter.answer with
  | .ok outcome => outcome.context
  | .error _ => none

/-- The context that the latest encounter carried, or the one at the start. -/
def latest (start : κ) (earlier : List (Encounter κ ω)) : κ :=
  (earlier.reverse.findSome? carried?).getD start

private theorem latest_cons
    (start : κ)
    (first : Encounter κ ω)
    (later : List (Encounter κ ω)) :
    latest start (first :: later) =
      latest (first.carried?.getD start) later := by
  unfold latest
  rw [List.reverse_cons, List.findSome?_append]
  cases later.reverse.findSome? carried? with
  | some context => rfl
  | none => cases carried : first.carried? <;> simp [carried]

end Encounter

/-- The verb and the arguments that a call asks for. -/
def Call.request (call : Call) : String × Bag :=
  (call.name, .ofArguments call.arguments)

/--
Encounters are those of the first of some calls, in order, and each received
the context that the latest one before it carried.
-/
structure Threaded (start : κ) (calls : List Call)
    (log : List (Encounter κ ω)) : Prop where
  inOrder : log.map Encounter.request <+: calls.map Call.request
  received :
    ∀ index (inside : index < log.length),
      log[index].context = Encounter.latest start (log.take index)

namespace Threaded

theorem nil (start : κ) (calls : List Call) :
    Threaded (ω := ω) start calls [] where
  inOrder := List.nil_prefix
  received index inside := absurd inside (Nat.not_lt_zero index)

theorem cons
    {start : κ}
    {call : Call}
    {rest : List Call}
    {first : Encounter κ ω}
    {later : List (Encounter κ ω)}
    (asked : first.request = call.request)
    (given : first.context = start)
    (others : Threaded (first.carried?.getD start) rest later) :
    Threaded start (call :: rest) (first :: later) where
  inOrder := by
    rw [List.map_cons, List.map_cons, asked]
    exact List.cons_prefix_cons.2 ⟨rfl, others.inOrder⟩
  received := by
    intro index inside
    cases index with
    | zero => exact given
    | succ index =>
        rw [List.take_succ_cons, Encounter.latest_cons]
        exact others.received index (Nat.lt_of_succ_lt_succ inside)

end Threaded

/-- A handler that records its encounters under a verb. -/
def Handler.witnessed (verb : String) (handler : Handler σ κ ω) :
    Handler (σ × List (Encounter κ ω)) κ ω :=
  fun bag context world =>
    match handler bag context ⟨world.token, world.state.1⟩ with
    | (answer, next) =>
        (answer, next.logging (world.state.2 ++ [⟨verb, bag, context, answer⟩]))

/-- Handlers that all record their encounters. -/
def Registry.witnessed (registry : Registry σ κ ω) :
    Registry (σ × List (Encounter κ ω)) κ ω :=
  registry.mapEntries Handler.witnessed

/-- A sink that leaves the log beside the state alone. -/
def Sink.beside (sink : Sink τ σ ω) : Sink τ (σ × List δ) ω :=
  fun call output received world =>
    match sink call output received ⟨world.token, world.state.1⟩ with
    | (flow, taken, next) => (flow, taken, next.logging world.state.2)

theorem Registry.find?_witnessed
    {registry : Registry σ κ ω}
    {verb : String}
    {handler : Handler σ κ ω}
    (found : registry.find? verb = some handler) :
    registry.witnessed.find? verb = some (handler.witnessed verb) := by
  have replaced := Table.find?_mapEntries Handler.witnessed registry verb
  rw [found] at replaced
  exact replaced

theorem Handler.witnessed_of_eq
    {handler : Handler σ κ ω}
    {bag : Bag}
    {context : κ}
    {world next : World σ}
    {answer : Except HandlerError (Outcome κ ω)}
    (ran : handler bag context world = (answer, next))
    (verb : String)
    (log : List (Encounter κ ω)) :
    handler.witnessed verb bag context (world.logging log) =
      (answer, next.logging (log ++ [⟨verb, bag, context, answer⟩])) := by
  unfold witnessed World.logging
  rw [ran]

theorem Sink.beside_of_eq
    {sink : Sink τ σ ω}
    {call : Call}
    {output : ω}
    {received taken : τ}
    {world next : World σ}
    {flow : Flow}
    (delivered : sink call output received world = (flow, taken, next))
    (log : List δ) :
    sink.beside call output received (world.logging log) =
      (flow, taken, next.logging log) := by
  unfold beside World.logging
  rw [delivered]

section Step

variable {registry : Registry σ κ ω} {sink : Sink τ σ ω} {call : Call}

/-- A call that completes is one encounter, and hands on what it carried. -/
theorem Completes.witnessed
    {start after : Moment κ τ σ}
    {deeds : List (Deed κ ω)}
    (completes : Completes registry sink call start deeds after) :
    ∃ encounter : Encounter κ ω,
      encounter.request = call.request ∧
        encounter.context = start.context ∧
        after.context = encounter.carried?.getD start.context ∧
        ∀ log,
          Completes registry.witnessed sink.beside call (start.logging log)
            deeds (after.logging (log ++ [encounter])) := by
  cases completes with
  | @proceed context received taken world acted last handler outcome live found
      ran delivered =>
      refine ⟨⟨call.name, .ofArguments call.arguments, context, .ok outcome⟩,
        rfl, rfl, rfl, ?_⟩
      intro log
      exact .proceed live (Registry.find?_witnessed found)
        (Handler.witnessed_of_eq ran call.name log)
        (Sink.beside_of_eq delivered _)

/-- A call that halts a walk is an encounter if its handler was invoked. -/
theorem Halts.witnessed
    {moment : Moment κ τ σ}
    {answer : Except EngineError Nat}
    {deeds : List (Deed κ ω)}
    {received : τ}
    {world : World σ}
    {completed : Nat}
    (halts :
      Halts registry sink completed call moment answer deeds received world)
    (rest : List Call) :
    ∃ entries : List (Encounter κ ω),
      Threaded moment.context (call :: rest) entries ∧
        (∀ count, answer = .ok count ∨ answer = .error (.cancelled count) →
          completed + entries.length = count) ∧
        ∀ log,
          Halts registry.witnessed sink.beside completed call
            (moment.logging log) answer deeds received
            (world.logging (log ++ entries)) := by
  cases halts with
  | cancelled cancelled =>
      refine ⟨[], .nil _ _, ?_, ?_⟩
      · rintro count (same | same) <;> cases same
        rfl
      · intro log
        rw [List.append_nil]
        exact .cancelled cancelled
  | unknown live missing =>
      refine ⟨[], .nil _ _, ?_, ?_⟩
      · rintro count (same | same) <;> cases same
      · intro log
        rw [List.append_nil]
        refine .unknown live ?_
        have replaced :=
          Table.find?_mapEntries (Handler.witnessed (σ := σ)) registry
            call.name
        rw [missing] at replaced
        exact replaced
  | @failed context received world acted handler cause live found ran =>
      refine ⟨[⟨call.name, .ofArguments call.arguments, context,
        .error cause⟩], .cons rfl rfl (.nil _ _), ?_, ?_⟩
      · rintro count (same | same) <;> cases same
      · intro log
        exact .failed live (Registry.find?_witnessed found)
          (Handler.witnessed_of_eq ran call.name log)
  | @stopped context received taken world acted last handler outcome live found
      ran delivered =>
      refine ⟨[⟨call.name, .ofArguments call.arguments, context,
        .ok outcome⟩], .cons rfl rfl (.nil _ _), ?_, ?_⟩
      · rintro count (same | same) <;> cases same
        rfl
      · intro log
        exact .stopped live (Registry.find?_witnessed found)
          (Handler.witnessed_of_eq ran call.name log)
          (Sink.beside_of_eq delivered _)

end Step

namespace Evaluation

/--
A walk whose handlers record themselves goes as without the records, and its
encounters are threaded.  When it answers a number of completed calls, there is
one encounter for each of them.
-/
theorem walkFrom_witnessed
    (registry : Registry σ κ ω)
    (sink : Sink τ σ ω)
    (completed : Nat)
    (calls : List Call)
    (start : Moment κ τ σ)
    (log : List (Encounter κ ω)) :
    ∃ entries answer received world,
      walkFrom registry sink completed start.context calls start.received
            start.world =
          (answer, received, world) ∧
        walkFrom registry.witnessed sink.beside completed start.context calls
            start.received (start.world.logging log) =
          (answer, received, world.logging (log ++ entries)) ∧
        Threaded start.context calls entries ∧
        ∀ count, answer = .ok count ∨ answer = .error (.cancelled count) →
          completed + entries.length = count := by
  induction calls generalizing completed start log with
  | nil =>
      refine ⟨[], .ok completed, start.received, start.world, rfl, ?_,
        .nil _ _, ?_⟩
      · rw [List.append_nil]
        rfl
      · rintro count (same | same) <;> cases same
        rfl
  | cons call rest inductionHypothesis =>
      rcases completes_or_halts registry sink completed call start with
        ⟨deeds, after, completes⟩ | ⟨answer, deeds, received, world, halts⟩
      · obtain ⟨encounter, asked, given, carried, witnessed⟩ :=
          completes.witnessed
        obtain ⟨entries, answer, received, world, walked, recorded, threaded,
          counted⟩ :=
          inductionHypothesis (completed + 1) after (log ++ [encounter])
        refine ⟨encounter :: entries, answer, received, world, ?_, ?_, ?_, ?_⟩
        · rw [walkFrom_of_completes completed rest completes, walked]
        · rw [List.append_assoc] at recorded
          exact (walkFrom_of_completes completed rest (witnessed log)).trans
            recorded
        · rw [carried] at threaded
          exact .cons asked given threaded
        · intro count answered
          have behind := counted count answered
          rw [List.length_cons]
          omega
      · obtain ⟨entries, threaded, counted, witnessed⟩ := halts.witnessed rest
        exact ⟨entries, answer, received, world,
          walkFrom_of_halts rest halts,
          walkFrom_of_halts rest (witnessed log), threaded, counted⟩

end Evaluation

/-- A walk to be taken: of which calls, under which token, into which sink. -/
structure Walking (σ ω : Type) where
  {Received : Type}
  sink : Sink Received σ ω
  received : Received
  chain : Chain
  token : CancelToken

/--
The ways to evaluate on an engine; clones of an engine are the same value.  The
consumer of a stream may go away after a number of sends.
-/
inductive Evaluating (σ ω : Type) where
  | interpret (chain : Chain) (token : CancelToken)
  | walk (walking : Walking σ ω)
  | compile (source : String)
  | stream (source : String) (token : CancelToken) (sends : Option Nat)

/-- The same walk with a log beside the state. -/
def Walking.beside (walking : Walking σ ω) : Walking (σ × List δ) ω where
  sink := walking.sink.beside
  received := walking.received
  chain := walking.chain
  token := walking.token

/-- The same evaluation with a log beside the state. -/
def Evaluating.beside : Evaluating σ ω → Evaluating (σ × List δ) ω
  | .interpret chain token => .interpret chain token
  | .walk walking => .walk walking.beside
  | .compile source => .compile source
  | .stream source token sends => .stream source token sends

namespace PlanningEngine

/-- The same engine with handlers that record their encounters. -/
def witnessed (engine : PlanningEngine σ ρ) :
    PlanningEngine (σ × List (Encounter Context (List Action))) ρ :=
  { engine with registry := engine.registry.witnessed }

/-- Take a walk on an engine. -/
def walk (engine : PlanningEngine σ ρ)
    (walking : Walking σ (List Action)) (state : σ) :
    Except EngineError Nat × walking.Received × World σ :=
  Evaluation.walk engine.convention engine.registry walking.sink walking.chain
    walking.received ⟨walking.token, state⟩

/-- The state that an evaluation leaves for the next one. -/
def perform (engine : PlanningEngine σ ρ) (state : σ) :
    Evaluating σ (List Action) → σ
  | .interpret chain token => (engine.interpret chain ⟨token, state⟩).2.state
  | .walk walking => (engine.walk walking state).2.2.state
  | .compile source => (engine.compile source state).2
  | .stream source token sends =>
      (engine.produce source (.openFor sends) ⟨token, state⟩).2.state

/-- The walk that an evaluation takes, unless its program is not read. -/
def walking? (engine : PlanningEngine σ ρ) :
    Evaluating σ (List Action) → Option (Walking σ (List Action))
  | .interpret chain token => some ⟨Evaluation.keeping, [], chain, token⟩
  | .walk walking => some walking
  | .compile source =>
      match engine.parse source with
      | .ok chain => some ⟨Evaluation.keeping, [], chain, .fresh⟩
      | .error _ => none
  | .stream source token sends =>
      match engine.parse source with
      | .ok chain =>
          some ⟨Outlet.publishing engine.convention.events, .openFor sends,
            chain, token⟩
      | .error _ => none

/-- What the encounters of one evaluation are. -/
structure Witnesses (engine : PlanningEngine σ ρ) (state : σ)
    (evaluating : Evaluating σ (List Action))
    (log : List (Encounter Context (List Action))) : Prop where
  /-- A program that is not read meets no handler. -/
  unread : engine.walking? evaluating = none → log = []
  /-- A handler receives what the latest outcome of its evaluation carried. -/
  threaded :
    ∀ walking, engine.walking? evaluating = some walking →
      Threaded .empty walking.chain.calls log
  /-- Every call that completes has its encounter. -/
  counted :
    ∀ walking, engine.walking? evaluating = some walking →
      ∀ count,
        (engine.walk walking state).1 = .ok count ∨
            (engine.walk walking state).1 = .error (.cancelled count) →
          log.length = count

/-- What the encounters of evaluations are that follow each other. -/
inductive WitnessesAll (engine : PlanningEngine σ ρ) :
    σ → List (Evaluating σ (List Action)) →
      List (List (Encounter Context (List Action))) → Prop where
  | nil (state : σ) : WitnessesAll engine state [] []
  | cons
      {state : σ}
      {evaluating : Evaluating σ (List Action)}
      {rest : List (Evaluating σ (List Action))}
      {log : List (Encounter Context (List Action))}
      {logs : List (List (Encounter Context (List Action)))}
      (first : engine.Witnesses state evaluating log)
      (others : WitnessesAll engine (engine.perform state evaluating) rest logs) :
      WitnessesAll engine state (evaluating :: rest) (log :: logs)

variable {engine : PlanningEngine σ ρ}

private theorem interpret_snd (chain : Chain) (world : World σ) :
    (engine.interpret chain world).2 =
      (Evaluation.walk engine.convention engine.registry Evaluation.keeping
        chain [] world).2.2 := by
  unfold Engine.interpret Evaluation.interpret
  rcases Evaluation.walk engine.convention engine.registry Evaluation.keeping
    chain [] world with ⟨answer, outputs, next⟩
  cases answer <;> rfl

private theorem compileChain_snd (chain : Chain) (world : World σ) :
    (engine.compileChain chain world).2 = (engine.interpret chain world).2 := by
  unfold compileChain
  rcases engine.interpret chain world with ⟨answer, next⟩
  cases answer <;> rfl

/-- An evaluation leaves what its walk leaves. -/
theorem perform_eq (state : σ) (evaluating : Evaluating σ (List Action)) :
    engine.perform state evaluating =
      match engine.walking? evaluating with
      | some walking => (engine.walk walking state).2.2.state
      | none => state := by
  cases evaluating with
  | interpret chain token =>
      rw [perform, interpret_snd]
      rfl
  | walk walking => rfl
  | compile source =>
      rw [perform, compile, walking?]
      cases engine.parse source with
      | error error => rfl
      | ok chain =>
          show (engine.compileChain chain ⟨.fresh, state⟩).2.state = _
          rw [compileChain_snd, interpret_snd]
          rfl
  | stream source token sends =>
      rw [perform, Engine.produce, walking?]
      cases engine.parse source with
      | error error => rfl
      | ok chain => rfl

/-- An evaluation that records itself takes the same walk. -/
theorem walking?_witnessed (evaluating : Evaluating σ (List Action)) :
    engine.witnessed.walking? evaluating.beside =
      (engine.walking? evaluating).map Walking.beside := by
  cases evaluating with
  | interpret chain token => rfl
  | walk walking => rfl
  | compile source =>
      show (match engine.parse source with
        | .ok chain => _
        | .error _ => _) = _
      rw [walking?]
      cases engine.parse source with
      | error error => rfl
      | ok chain => rfl
  | stream source token sends =>
      show (match engine.parse source with
        | .ok chain => _
        | .error _ => _) = _
      rw [walking?]
      cases engine.parse source with
      | error error => rfl
      | ok chain => rfl

/-- One evaluation leaves the same state and appends its encounters. -/
private theorem exists_witnesses
    (planning : engine.convention = .planning)
    (state : σ)
    (log : List (Encounter Context (List Action)))
    (evaluating : Evaluating σ (List Action)) :
    ∃ entries,
      engine.witnessed.perform (state, log) evaluating.beside =
          (engine.perform state evaluating, log ++ entries) ∧
        engine.Witnesses state evaluating entries := by
  rw [perform_eq, perform_eq, walking?_witnessed]
  cases taken : engine.walking? evaluating with
  | none =>
      refine ⟨[], by rw [List.append_nil]; rfl, fun _ => rfl, ?_, ?_⟩
      · intro walking found
        rw [taken] at found
        cases found
      · intro walking found
        rw [taken] at found
        cases found
  | some walking =>
      obtain ⟨entries, answer, received, world, walked, recorded, threaded,
        counted⟩ :=
        Evaluation.walkFrom_witnessed engine.registry walking.sink 0
          walking.chain.calls
          ⟨engine.convention.start, walking.received, ⟨walking.token, state⟩⟩
          log
      have goes : engine.walk walking state = (answer, received, world) := walked
      have records :
          engine.witnessed.walk walking.beside (state, log) =
            (answer, received, world.logging (log ++ entries)) :=
        recorded
      have left : (engine.walk walking state).2.2.state = world.state :=
        congrArg (fun taken => taken.2.2.state) goes
      have right :
          (engine.witnessed.walk walking.beside (state, log)).2.2.state =
            (world.state, log ++ entries) :=
        congrArg (fun taken => taken.2.2.state) records
      refine ⟨entries, ?_, ?_, ?_, ?_⟩
      · rw [← left] at right
        exact right
      · intro nothing
        rw [taken] at nothing
        cases nothing
      · intro other found
        rw [taken] at found
        cases found
        rw [planning] at threaded
        exact threaded
      · intro other found count answered
        rw [taken] at found
        cases found
        rw [goes] at answered
        have behind := counted count answered
        rwa [Nat.zero_add] at behind

theorem exists_witnessesAll
    (planning : engine.convention = .planning)
    (session : List (Evaluating σ (List Action)))
    (state : σ)
    (log : List (Encounter Context (List Action))) :
    ∃ logs,
      (session.map Evaluating.beside).foldl engine.witnessed.perform
            (state, log) =
          (session.foldl engine.perform state, log ++ logs.flatten) ∧
        engine.WitnessesAll state session logs := by
  induction session generalizing state log with
  | nil => exact ⟨[], by simp, .nil state⟩
  | cons evaluating rest inductionHypothesis =>
      obtain ⟨entries, performed, first⟩ :=
        exists_witnesses planning state log evaluating
      obtain ⟨logs, others, later⟩ :=
        inductionHypothesis (engine.perform state evaluating) (log ++ entries)
      refine ⟨entries :: logs, ?_, .cons first later⟩
      rw [List.map_cons, List.foldl_cons, List.foldl_cons, performed, others,
        List.flatten_cons, List.append_assoc]

/--
Whatever an engine of planning handlers and a sequence of evaluations on it:
each handler receives the context that the latest outcome in front of it in the
same evaluation carried, or the empty one.  Earlier evaluations leave a state,
however they ended, and the recorded state is the one they leave without the
records.
-/
theorem contexts_are_threaded
    (planning : engine.convention = .planning)
    (session : List (Evaluating σ (List Action)))
    (state : σ) :
    ∃ logs,
      (session.map Evaluating.beside).foldl engine.witnessed.perform
            (state, []) =
          (session.foldl engine.perform state, logs.flatten) ∧
        engine.WitnessesAll state session logs :=
  exists_witnessesAll planning session state []

/--
A mute behind a track receives the name of the track, also where a verb in
between leaves no context.  A track of a chain that fails is not there for the
chain that comes next.
-/
theorem contexts_are_threaded_tracks :
    let engine : PlanningEngine Unit Unit :=
      ⟨.planning, "", fun _ => .error (.ofBackend ""), Music.registry,
        fun _ device => (.ok (), device), .standard⟩
    let track : Call := ⟨"track", [.named "name" (.string "Drums")]⟩
    let mute : Call := ⟨"mute", []⟩
    let session : List (Evaluating Unit (List Action)) :=
      [.interpret ⟨[mute, track, mute, mute, ⟨"solo", []⟩]⟩ .fresh,
        .interpret ⟨[mute]⟩ .fresh]
    engine.convention = .planning ∧
      ∃ logs,
        engine.WitnessesAll () session logs ∧
          logs.flatten.map (fun encounter =>
              (encounter.verb, encounter.context.text? "track")) =
            [("mute", none), ("track", none), ("mute", some "Drums"),
              ("mute", some "Drums"), ("mute", none)] := by
  intro engine track mute session
  have planning : engine.convention = .planning := rfl
  obtain ⟨logs, performed, all⟩ := contexts_are_threaded planning session ()
  refine ⟨planning, logs, all, ?_⟩
  have recorded :
      ((session.map Evaluating.beside).foldl engine.witnessed.perform
        ((), [])).2 = logs.flatten :=
    congrArg Prod.snd performed
  rw [← recorded]
  decide +kernel

end PlanningEngine

end VerbChain
