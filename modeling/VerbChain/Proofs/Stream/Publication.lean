import VerbChain.Engine
import VerbChain.Proofs.Evaluation.Reach
import VerbChain.Proofs.Stream.Interleaving

namespace VerbChain

/-!
# What a stream publishes

A stream and an evaluation walk the same chain into different sinks.  Neither
sink ends the walk or touches the world, so the two walks do the same deeds,
and the items of a stream are the events of the outputs that an evaluation
keeps for the calls it completes.  An evaluation that fails drops them; the
stream has published them by then and publishes the error behind them.
-/

/-- The events of calls that completed with outputs, call by call. -/
def Convention.eventsOf (convention : Convention κ ω ε) (calls : List Call)
    (outputs : List ω) : List ε :=
  (List.zipWith convention.events calls outputs).flatten

theorem Convention.eventsOf_cons
    (convention : Convention κ ω ε)
    (call : Call)
    (rest : List Call)
    (output : ω)
    (others : List ω) :
    convention.eventsOf (call :: rest) (output :: others) =
      convention.events call output ++ convention.eventsOf rest others :=
  rfl

/-- No handler breaks down: each gives an answer of its own. -/
def Registry.Answers (registry : Registry σ κ ω) : Prop :=
  ∀ verb handler, registry.find? verb = some handler →
    ∀ bag context world, (handler bag context world).1 ≠ .error .crash

namespace Outlet

/-- An outlet that stays open sends all events. -/
theorem sendEvents_of_open
    (events : List ε)
    (sent : List (StreamItem ε)) :
    sendEvents events ⟨none, sent⟩ =
      (.proceed, ⟨none, sent ++ events.map .ok⟩) := by
  induction events generalizing sent with
  | nil => simp [sendEvents]
  | cons event rest inductionHypothesis =>
      simp [sendEvents, send, inductionHypothesis]

/-- An outlet that stays open takes every output and leaves the world alone. -/
theorem publishing_of_open
    (events : Call → ω → List ε)
    (call : Call)
    (output : ω)
    (sent : List (StreamItem ε))
    (world : World σ) :
    publishing events call output ⟨none, sent⟩ world =
      (.proceed, ⟨none, sent ++ (events call output).map .ok⟩, world) := by
  rw [publishing, sendEvents_of_open]

end Outlet

section Sinks

variable {registry : Registry σ κ ω}

/-- A call that completes for an evaluation completes for a stream. -/
theorem Completes.publishing
    {call : Call}
    {start after : Moment κ (List ω) σ}
    {deeds : List (Deed κ ω)}
    (completes :
      Completes registry Evaluation.keeping call start deeds after)
    (events : Call → ω → List ε) :
    ∃ output,
      after.received = start.received ++ [output] ∧
        ∀ sent,
          Completes registry (Outlet.publishing events) call
            ⟨start.context, ⟨none, sent⟩, start.world⟩ deeds
            ⟨after.context, ⟨none, sent ++ (events call output).map .ok⟩,
              after.world⟩ := by
  cases completes with
  | @proceed context received taken world acted last handler outcome live found
      ran delivered =>
      cases delivered
      refine ⟨outcome.output, rfl, ?_⟩
      intro sent
      exact .proceed live found ran
        (Outlet.publishing_of_open events call outcome.output sent acted)

/-- Calls that complete for an evaluation complete for a stream. -/
theorem CompletesAll.publishing
    {done : List Call}
    {start final : Moment κ (List ω) σ}
    {deeds : List (Deed κ ω)}
    (all : CompletesAll registry Evaluation.keeping start done deeds final)
    (convention : Convention κ ω ε) :
    ∃ outputs,
      final.received = start.received ++ outputs ∧
        ∀ sent,
          CompletesAll registry (Outlet.publishing convention.events)
            ⟨start.context, ⟨none, sent⟩, start.world⟩ done deeds
            ⟨final.context,
              ⟨none, sent ++ (convention.eventsOf done outputs).map .ok⟩,
              final.world⟩ := by
  induction all with
  | nil moment =>
      refine ⟨[], by simp, ?_⟩
      intro sent
      have same : sent ++ (convention.eventsOf [] []).map .ok = sent := by
        simp [Convention.eventsOf]
      rw [same]
      exact .nil _
  | @cons start middle final call rest deeds later first others
      inductionHypothesis =>
      obtain ⟨output, kept, publishes⟩ :=
        first.publishing convention.events
      obtain ⟨outputs, keptAll, publishesAll⟩ := inductionHypothesis
      refine ⟨output :: outputs, ?_, ?_⟩
      · rw [keptAll, kept, List.append_assoc, List.singleton_append]
      · intro sent
        have shape :
            sent ++ (convention.eventsOf (call :: rest)
                (output :: outputs)).map .ok =
              sent ++ (convention.events call output).map .ok ++
                (convention.eventsOf rest outputs).map .ok := by
          rw [Convention.eventsOf_cons, List.map_append, List.append_assoc]
        rw [shape]
        exact .cons (publishes sent) (publishesAll _)

/-- An error that halts an evaluation halts a stream. -/
theorem Halts.publishing
    {call : Call}
    {moment : Moment κ (List ω) σ}
    {error : EngineError}
    {last : List (Deed κ ω)}
    {received : List ω}
    {next : World σ}
    {completed : Nat}
    (halts :
      Halts registry Evaluation.keeping completed call moment (.error error)
        last received next)
    (events : Call → ω → List ε)
    (sent : List (StreamItem ε)) :
    Halts registry (Outlet.publishing events) completed call
      ⟨moment.context, ⟨none, sent⟩, moment.world⟩ (.error error) last
      ⟨none, sent⟩ next := by
  cases halts with
  | cancelled cancelled => exact .cancelled cancelled
  | unknown live missing => exact .unknown live missing
  | failed live found ran => exact .failed live found ran

/-- Where no handler breaks down, no breakdown halts an evaluation. -/
theorem Halts.ne_crash
    {sink : Sink τ σ ω}
    {call : Call}
    {moment : Moment κ τ σ}
    {error : EngineError}
    {last : List (Deed κ ω)}
    {received : τ}
    {next : World σ}
    {completed : Nat}
    (answers : registry.Answers)
    (halts :
      Halts registry sink completed call moment (.error error) last received
        next)
    (name : String) :
    error ≠ .handler name .crash := by
  cases halts with
  | cancelled cancelled => simp
  | unknown live missing => simp
  | @failed context received world acted handler cause live found ran =>
      intro broken
      cases broken
      have given :=
        answers call.name handler found (.ofArguments call.arguments) context
          world
      rw [ran] at given
      exact given rfl

end Sinks

namespace Production

/-- An error that is no breakdown is sent behind what was sent. -/
private theorem ofWalk_error
    {error : EngineError}
    (answered : ∀ name, error ≠ .handler name .crash)
    (sent : List (StreamItem ε)) :
    ofWalk (.error error) ⟨none, sent⟩ =
      ⟨⟨none, sent ++ [.error error]⟩, .normal⟩ := by
  unfold ofWalk
  split
  · next same => cases same
  · next name same =>
      cases same
      exact absurd rfl (answered name)
  · next same =>
      cases same
      rfl

/--
An evaluation gets to some place, and a stream has published the events of all
calls in front of it and then the error of the call there, if there is one.
-/
theorem exists_reaches
    {registry : Registry σ κ ω}
    (answers : registry.Answers)
    (convention : Convention κ ω ε)
    (chain : Chain)
    (world : World σ) :
    ∃ completed outputs failure next,
      Evaluation.Reaches convention registry chain world completed outputs
          failure next ∧
        ofChain convention registry chain (.openFor none) world =
          (⟨⟨none,
              (convention.eventsOf (chain.cut completed).calls
                  outputs).map .ok ++
                failure.toList.map .error⟩,
            .normal⟩,
            next) := by
  obtain ⟨calls⟩ := chain
  rcases Evaluation.completesAll_or_fails convention registry calls world
    with
    ⟨deeds, final, all⟩ | ⟨done, call, rest, deeds, moment, error, last,
      received, next, rfl, before, halts⟩
  · obtain ⟨outputs, kept, publishes⟩ := all.publishing convention
    have reaches := Evaluation.reaches_of_completesAll all
    rw [kept, List.nil_append] at reaches
    refine ⟨_, outputs, none, final.world, reaches, ?_⟩
    have walked := walkFrom_of_account (.finished (publishes []))
    rw [ofChain, Evaluation.walk, Outlet.openFor, walked]
    simp [ofWalk, Chain.cut]
  · obtain ⟨outputs, kept, publishes⟩ := before.publishing convention
    have haltsStream := halts.publishing convention.events
    have reaches := Evaluation.reaches_of_halts before halts rest
    rw [kept, List.nil_append] at reaches
    refine ⟨done.length, outputs, some error, next, reaches, ?_⟩
    have account :
        Account registry (Outlet.publishing convention.events)
          (done ++ call :: rest) ⟨convention.start, .openFor none, world⟩
          (.error error) (deeds ++ last) _ next :=
      .halted rfl (publishes []) (haltsStream _)
    have walked := walkFrom_of_account account
    rw [ofChain, Evaluation.walk, walked, Chain.cut_append]
    show (ofWalk _ _, next) = _
    rw [ofWalk_error (halts.ne_crash answers)]
    rfl

end Production

/-- An engine whose handlers record themselves. -/
def Engine.recording (engine : Engine σ κ ω ε ρ) :
    Engine (σ × List (Deed κ ω)) κ ω ε ρ :=
  { engine with registry := engine.registry.recording }

namespace Engine

variable {engine : Engine σ κ ω ε ρ}

/-- A program that is not read streams the parse error and changes nothing. -/
theorem stream_of_rejected
    {source : String}
    {cause : ParseError}
    (rejected : engine.parser source = .error cause)
    (world : World σ) :
    engine.stream source world =
      (.opened engine.settings.streamCapacity [.error (.parse cause)] .normal,
        world) := by
  simp [stream, produce, parse, rejected, Production.ofError,
    Production.channel, Outlet.openFor, Outlet.send]

/-- A program that is read streams what its evaluation gets to. -/
theorem exists_reaches_stream
    {source : String}
    {chain : Chain}
    (answers : engine.registry.Answers)
    (parsed : engine.parser source = .ok chain)
    (world : World σ)
    (moves : List Channel.Move) :
    ∃ completed outputs failure,
      Evaluation.Reaches engine.convention engine.registry chain world
          completed outputs failure (engine.stream source world).2 ∧
        (engine.stream source world).1.consumed moves =
          (engine.convention.eventsOf (chain.cut completed).calls
              outputs).map .ok ++
            failure.toList.map .error := by
  obtain ⟨completed, outputs, failure, next, reaches, produced⟩ :=
    Production.exists_reaches answers engine.convention chain world
  have streamed :
      engine.stream source world =
        (.opened engine.settings.streamCapacity
            ((engine.convention.eventsOf (chain.cut completed).calls
                outputs).map .ok ++
              failure.toList.map .error)
            .normal,
          next) := by
    simp [stream, produce, parse, parsed, produced, Production.channel]
  rw [streamed]
  refine ⟨completed, outputs, failure, reaches, ?_⟩
  rw [Channel.consumed_opened]
  exact List.append_nil _

end Engine

/-- Direct calls publish one report each. -/
theorem Convention.eventsOf_direct
    {calls : List Call}
    {outputs : List Unit}
    (sameLength : outputs.length = calls.length) :
    Convention.direct.eventsOf calls outputs =
      calls.map fun call => ⟨call.name⟩ := by
  induction calls generalizing outputs with
  | nil => simp [eventsOf]
  | cons call rest inductionHypothesis =>
      cases outputs with
      | nil => cases sameLength
      | cons output others =>
          have fewer : others.length = rest.length := by
            simpa using sameLength
          rw [eventsOf_cons, inductionHypothesis fewer]
          rfl

/-- Planning calls publish all their actions. -/
theorem Convention.eventsOf_planning
    {calls : List Call}
    {outputs : List (List Action)}
    (sameLength : outputs.length = calls.length) :
    Convention.planning.eventsOf calls outputs = outputs.flatten := by
  induction calls generalizing outputs with
  | nil =>
      rw [List.length_nil, List.length_eq_zero_iff] at sameLength
      simp [eventsOf, sameLength]
  | cons call rest inductionHypothesis =>
      cases outputs with
      | nil => cases sameLength
      | cons output others =>
          have fewer : others.length = rest.length := by
            simpa using sameLength
          rw [eventsOf_cons, inductionHypothesis fewer]
          rfl

namespace StreamItem

/-- The items of a plan hold no error. -/
private theorem map_ok_append_error_ne
    (events plan : List ε)
    (error : EngineError) :
    (events.map .ok ++ [.error error] : List (StreamItem ε)) ≠
      plan.map .ok := by
  intro same
  have member : (.error error : StreamItem ε) ∈ plan.map .ok := by
    rw [← same]
    simp
  simp at member

/-- The items of a plan tell the plan. -/
private theorem map_ok_injective
    {left right : List ε}
    (same : (left.map .ok : List (StreamItem ε)) = right.map .ok) :
    left = right := by
  refine (List.map_inj_right ?_).1 same
  intro a b equal
  cases equal
  rfl

end StreamItem

/-- What the stream of a program publishes and leaves behind. -/
structure Engine.Publishes (engine : Engine σ κ ω ε ρ) (source : String)
    (world : World σ) (items : List (StreamItem ε)) (next : World σ) :
    Prop where
  /-- A parse error is the only item, and no handler runs. -/
  rejected :
    ∀ cause, engine.parser source = .error cause →
      items = [.error (.parse cause)] ∧ next = world ∧
        (engine.recording.stream source (world.logging [])).2 =
          world.logging []
  /-- The events of the completed calls, and the error of an evaluation. -/
  evaluated :
    ∀ chain, engine.parser source = .ok chain →
      ∃ completed outputs failure,
        Evaluation.Reaches engine.convention engine.registry chain world
            completed outputs failure next ∧
          items =
            (engine.convention.eventsOf (chain.cut completed).calls
                outputs).map .ok ++
              failure.toList.map .error

/-- What the stream of a program of direct calls publishes. -/
def DirectEngine.PublishesReports (engine : DirectEngine σ)
    (source : String) (world : World σ)
    (items : List (StreamItem CallCompleted)) : Prop :=
  ∀ chain, engine.parser source = .ok chain →
    ∃ completed outputs failure next,
      Evaluation.Reaches engine.convention engine.registry chain world
          completed outputs failure next ∧
        items =
          ((chain.cut completed).calls.map fun call => .ok ⟨call.name⟩) ++
            failure.toList.map .error

/-- What the stream of a program of planning calls publishes. -/
structure PlanningEngine.PublishesPlan (engine : PlanningEngine σ ρ)
    (source : String) (world : World σ)
    (items : List (StreamItem Action)) : Prop where
  /-- In the same world a chain is compiled to the plan that is published. -/
  whole :
    ∀ chain, engine.parser source = .ok chain →
      ∀ plan,
        (engine.compileChain chain world).1 = .ok plan ↔ items = plan.map .ok
  /--
  Under a token never cancelled a program is compiled to that plan.  A fresh
  token is the one that compiling starts from, so a handler that cancels stops
  both; under another token only steadiness leaves such handlers out.
  -/
  compiled :
    world.token = .fresh ∨
        (world.token.isCancelled = false ∧ engine.registry.Steady) →
      ∀ plan,
        (engine.compile source world.state).1 = .ok plan ↔
          items = plan.map .ok
  /-- A chain that fails does so at one of its calls. -/
  fails :
    ∀ chain, engine.parser source = .ok chain →
      ∀ error, (engine.compileChain chain world).1 = .error error →
        ∃ completed plan,
          completed < chain.length ∧
            (engine.compileChain (chain.cut completed) world).1 = .ok plan ∧
            (engine.compileChain (chain.cut (completed + 1)) world).1 =
              .error error
  /-- The plan of the chain in front of that call is published. -/
  front :
    ∀ chain, engine.parser source = .ok chain →
      ∀ completed plan error, completed < chain.length →
        (engine.compileChain (chain.cut completed) world).1 = .ok plan →
          (engine.compileChain (chain.cut (completed + 1)) world).1 =
              .error error →
            items = plan.map .ok ++ [.error error]

namespace PlanningEngine

variable {engine : PlanningEngine σ ρ}

/-- A chain is compiled to the actions of the outputs it is evaluated to. -/
theorem compileChain_eq
    (chain : Chain)
    (world : World σ) :
    (engine.compileChain chain world).1 =
      (Evaluation.interpret engine.convention engine.registry chain
        world).1.map List.flatten := by
  unfold compileChain Engine.interpret
  rcases Evaluation.interpret engine.convention engine.registry chain world
    with ⟨answer, next⟩
  cases answer <;> rfl

/-- A chain is compiled when it is evaluated. -/
theorem compileChain_eq_ok_iff
    {chain : Chain}
    {world : World σ}
    {plan : Plan} :
    (engine.compileChain chain world).1 = .ok plan ↔
      ∃ outputs next,
        Evaluation.interpret engine.convention engine.registry chain world =
            (.ok outputs, next) ∧
          plan = outputs.flatten := by
  rw [compileChain_eq]
  rcases Evaluation.interpret engine.convention engine.registry chain world
    with ⟨answer, next⟩
  cases answer with
  | error error => simp [Except.map]
  | ok outputs => simp [Except.map, eq_comm]

theorem compileChain_eq_error_iff
    {chain : Chain}
    {world : World σ}
    {error : EngineError} :
    (engine.compileChain chain world).1 = .error error ↔
      ∃ next,
        Evaluation.interpret engine.convention engine.registry chain world =
          (.error error, next) := by
  rw [compileChain_eq]
  rcases Evaluation.interpret engine.convention engine.registry chain world
    with ⟨answer, next⟩
  cases answer with
  | error same => simp [Except.map]
  | ok outputs => simp [Except.map]

/-- Under a token never cancelled a chain is compiled as under a fresh one. -/
theorem compileChain_of_neverCancelled
    {chain : Chain}
    {world : World σ}
    (neverCancelled :
      world.token = .fresh ∨
        (world.token.isCancelled = false ∧ engine.registry.Steady)) :
    (engine.compileChain chain ⟨.fresh, world.state⟩).1 =
      (engine.compileChain chain world).1 := by
  obtain ⟨token, state⟩ := world
  rcases neverCancelled with fresh | ⟨live, steady⟩
  · have same : token = .fresh := fresh
    rw [same]
  · rw [compileChain_eq, compileChain_eq,
      Evaluation.interpret_of_steady steady engine.convention chain state
        rfl live]

/-- An evaluation that gets to its end is one whose actions are published. -/
theorem whole_of_reaches
    {chain : Chain}
    {world next : World σ}
    {completed : Nat}
    {outputs : List (List Action)}
    {failure : Option EngineError}
    (reaches :
      Evaluation.Reaches engine.convention engine.registry chain world
        completed outputs failure next)
    (plan : Plan) :
    (engine.compileChain chain world).1 = .ok plan ↔
      (outputs.flatten.map .ok ++ failure.toList.map .error :
          List (StreamItem Action)) =
        plan.map .ok := by
  rw [compileChain_eq_ok_iff]
  cases reaches with
  | whole evaluated =>
      rw [evaluated]
      constructor
      · rintro ⟨others, after, same, rfl⟩
        cases same
        exact List.append_nil _
      · intro same
        have sameItems := (List.append_nil _).symm.trans same
        exact ⟨outputs, next, rfl, (StreamItem.map_ok_injective sameItems).symm⟩
  | failing inside before behind failed =>
      rw [failed]
      constructor
      · rintro ⟨others, after, same, _⟩
        cases same
      · intro same
        exact absurd same (StreamItem.map_ok_append_error_ne _ _ _)

end PlanningEngine

/-- A stream publishes what the evaluation of its program gets to. -/
theorem Engine.stream_publishes
    {engine : Engine σ κ ω ε ρ}
    (answers : engine.registry.Answers)
    (source : String)
    (world : World σ)
    (moves : List Channel.Move) :
    engine.Publishes source world
      ((engine.stream source world).1.consumed moves)
      (engine.stream source world).2 where
  rejected := by
    intro cause rejected
    have recorded : engine.recording.parser source = .error cause := rejected
    rw [Engine.stream_of_rejected rejected, Channel.consumed_opened]
    refine ⟨rfl, rfl, ?_⟩
    rw [Engine.stream_of_rejected recorded]
  evaluated := by
    intro chain parsed
    exact Engine.exists_reaches_stream answers parsed world moves

/-- A stream of direct calls publishes a report for each completed call. -/
theorem DirectEngine.stream_publishesReports
    {engine : DirectEngine σ}
    (direct : engine.convention = .direct)
    (answers : engine.registry.Answers)
    (source : String)
    (world : World σ)
    (moves : List Channel.Move) :
    engine.PublishesReports source world
      ((engine.stream source world).1.consumed moves) := by
  intro chain parsed
  obtain ⟨completed, outputs, failure, reaches, published⟩ :=
    Engine.exists_reaches_stream answers parsed world moves
  refine ⟨completed, outputs, failure, _, reaches, ?_⟩
  rw [published, direct,
    Convention.eventsOf_direct reaches.length_outputs, List.map_map]
  rfl

/-- A program of planning calls streams the actions its evaluation gets to. -/
theorem PlanningEngine.exists_reaches_stream
    {engine : PlanningEngine σ ρ}
    {source : String}
    {chain : Chain}
    (planning : engine.convention = .planning)
    (answers : engine.registry.Answers)
    (parsed : engine.parser source = .ok chain)
    (world : World σ)
    (moves : List Channel.Move) :
    ∃ completed outputs failure,
      Evaluation.Reaches engine.convention engine.registry chain world
          completed outputs failure (engine.stream source world).2 ∧
        (engine.stream source world).1.consumed moves =
          outputs.flatten.map .ok ++ failure.toList.map .error := by
  obtain ⟨completed, outputs, failure, reaches, published⟩ :=
    Engine.exists_reaches_stream answers parsed world moves
  refine ⟨completed, outputs, failure, reaches, ?_⟩
  rw [published, planning,
    Convention.eventsOf_planning reaches.length_outputs]

/-- A stream of planning calls publishes the plan. -/
theorem PlanningEngine.stream_publishesPlan
    {engine : PlanningEngine σ ρ}
    (planning : engine.convention = .planning)
    (answers : engine.registry.Answers)
    (source : String)
    (world : World σ)
    (moves : List Channel.Move) :
    engine.PublishesPlan source world
      ((engine.stream source world).1.consumed moves) := by
  have whole
      {chain : Chain}
      (parsed : engine.parser source = .ok chain)
      (plan : Plan) :
      (engine.compileChain chain world).1 = .ok plan ↔
        (engine.stream source world).1.consumed moves = plan.map .ok := by
    obtain ⟨completed, outputs, failure, reaches, published⟩ :=
      exists_reaches_stream planning answers parsed world moves
    rw [published]
    exact whole_of_reaches reaches plan
  refine ⟨fun chain parsed plan => whole parsed plan, ?_, ?_, ?_⟩
  · intro neverCancelled plan
    cases parsed : engine.parser source with
    | error cause =>
        rw [Engine.stream_of_rejected parsed, Channel.consumed_opened]
        have failed :
            (engine.compile source world.state).1 = .error (.parse cause) := by
          simp [compile, Engine.parse, parsed]
        rw [failed]
        constructor
        · intro same
          cases same
        · intro same
          exact absurd same (StreamItem.map_ok_append_error_ne [] plan _)
    | ok chain =>
        have compiled :
            (engine.compile source world.state).1 =
              (engine.compileChain chain ⟨.fresh, world.state⟩).1 := by
          simp [compile, Engine.parse, parsed]
        rw [compiled, compileChain_of_neverCancelled neverCancelled]
        exact whole parsed plan
  · intro chain parsed error failed
    obtain ⟨next, evaluated⟩ := compileChain_eq_error_iff.1 failed
    obtain ⟨completed, outputs, failure, reaches, _⟩ :=
      exists_reaches_stream planning answers parsed world moves
    cases reaches with
    | whole others =>
        rw [evaluated] at others
        cases others
    | failing inside before behind same =>
        rw [evaluated] at same
        cases same
        exact ⟨completed, outputs.flatten, inside,
          compileChain_eq_ok_iff.2 ⟨_, _, before, rfl⟩,
          compileChain_eq_error_iff.2 ⟨_, behind⟩⟩
  · intro chain parsed completed plan error inside front behind
    obtain ⟨outputs, last, before, rfl⟩ := compileChain_eq_ok_iff.1 front
    obtain ⟨next, failed⟩ := compileChain_eq_error_iff.1 behind
    have evaluated := Evaluation.interpret_cut_of_error failed inside
    rw [Chain.cut_length] at evaluated
    obtain ⟨number, others, failure, reaches, published⟩ :=
      exists_reaches_stream planning answers parsed world moves
    obtain ⟨_, rfl, rfl, _⟩ :=
      reaches.unique (.failing inside before failed evaluated)
    exact published

/-- An engine of one verb to which every program is the same chain. -/
def Engine.ofVerb (convention : Convention κ ω ε) (verb : String)
    (handler : Handler Unit κ ω) (parsed : Except ParseError Chain) :
    Engine Unit κ ω ε Unit where
  convention := convention
  grammar := ""
  parser := fun _ => parsed
  registry := Table.empty.insert verb handler
  executor := fun _ device => (.ok (), device)
  settings := { Settings.standard with streamCapacity := some 0 }

/-- The only handler of an engine of one verb is the given one. -/
theorem Engine.eq_of_find?_ofVerb
    {convention : Convention κ ω ε}
    {verb other : String}
    {handler found : Handler Unit κ ω}
    {parsed : Except ParseError Chain}
    (registered :
      (ofVerb convention verb handler parsed).registry.find? other =
        some found) :
    found = handler := by
  simp only [ofVerb, Table.find?_insert, Table.find?_empty] at registered
  split at registered
  · cases registered
    rfl
  · cases registered

/--
Whatever an engine, a program, a world, a channel's capacity and the order of
the producer's and the consumer's moves: a consumer that ends by taking
everything gets the events of the calls that an evaluation completes, and then
the error if the evaluation fails.  Direct calls publish a report each.
Planning calls publish the plan that compiling gives, or, if compiling fails at
a call, the plan of the chain in front of that call.
-/
theorem stream_publishes_evaluation :
    (∀ (σ κ ω ε ρ : Type) (engine : Engine σ κ ω ε ρ) (source : String)
        (world : World σ) (moves : List Channel.Move),
      engine.registry.Answers →
        engine.Publishes source world
          ((engine.stream source world).1.consumed moves)
          (engine.stream source world).2) ∧
      (∀ (σ : Type) (engine : DirectEngine σ) (source : String)
          (world : World σ) (moves : List Channel.Move),
        engine.convention = .direct → engine.registry.Answers →
          engine.PublishesReports source world
            ((engine.stream source world).1.consumed moves)) ∧
      ∀ (σ ρ : Type) (engine : PlanningEngine σ ρ) (source : String)
          (world : World σ) (moves : List Channel.Move),
        engine.convention = .planning → engine.registry.Answers →
          engine.PublishesPlan source world
            ((engine.stream source world).1.consumed moves) := by
  refine ⟨?_, ?_, ?_⟩
  · intro σ κ ω ε ρ engine source world moves answers
    exact engine.stream_publishes answers source world moves
  · intro σ engine source world moves direct answers
    exact engine.stream_publishesReports direct answers source world moves
  · intro σ ρ engine source world moves planning answers
    exact engine.stream_publishesPlan planning answers source world moves

/--
A lamp that is planned to be switched on and then off: nothing switches it off,
so the action for switching it on is published and then the error.  Switching
it on alone is compiled, and published under a token with a deadline ahead.  A
lamp that is switched on at once publishes a report.
-/
theorem stream_publishes_lamp :
    let planned : PlanningHandler Unit :=
      .computing fun _ _ => .ok (Registry.oneAction (.bare "light_on"))
    let switched : DirectHandler Unit := .acting fun _ state => .ok state
    let both : Chain := ⟨[⟨"on", []⟩, ⟨"off", []⟩]⟩
    let engine := Engine.ofVerb .planning "on" planned
    let rejecting := engine (.error (.ofBackend "unreadable"))
    let switching := Engine.ofVerb .direct "on" switched (.ok both)
    (rejecting.stream "" ⟨.fresh, ()⟩).1.consumed [.produce] =
        [.error (.parse (.ofBackend "unreadable"))] ∧
      DirectEngine.PublishesReports switching "" ⟨.fresh, ()⟩
        ((switching.stream "" ⟨.fresh, ()⟩).1.consumed [.next]) ∧
      ((engine (.ok both)).stream "" ⟨.fresh, ()⟩).1.consumed
          [.poll, .next] =
        [.ok (.bare "light_on"), .error (.unknownCall "off")] ∧
      ((engine (.ok (both.cut 1))).stream "" ⟨⟨false, .ahead⟩, ()⟩).1.consumed
          [] =
        [.ok (.bare "light_on")] := by
  intro planned switched both engine rejecting switching
  have answers (parsed : Except ParseError Chain) :
      (engine parsed).registry.Answers := by
    intro verb handler found bag context world
    rw [Engine.eq_of_find?_ofVerb found]
    intro broken
    cases broken
  have switchingAnswers : switching.registry.Answers := by
    intro verb handler found bag context world
    rw [Engine.eq_of_find?_ofVerb found]
    intro broken
    cases broken
  have steady : (engine (.ok (both.cut 1))).registry.Steady := by
    intro verb handler found bag context state first second live liveToo
    rw [Engine.eq_of_find?_ofVerb found]
    exact ⟨_, _, first, second, rfl, rfl, live, liveToo⟩
  refine ⟨?_, ?_, ?_, ?_⟩
  · have published :=
      stream_publishes_evaluation.1 Unit Context (List Action) Action Unit
        rejecting "" ⟨.fresh, ()⟩ [.produce] (answers _)
    exact (published.rejected (.ofBackend "unreadable") rfl).1
  · exact stream_publishes_evaluation.2.1 Unit switching "" ⟨.fresh, ()⟩
      [.next] rfl switchingAnswers
  · have published :=
      stream_publishes_evaluation.2.2 Unit Unit (engine (.ok both)) ""
        ⟨.fresh, ()⟩ [.poll, .next] rfl (answers _)
    exact published.front both rfl 1 [.bare "light_on"] (.unknownCall "off")
      (by decide) rfl rfl
  · have published :=
      stream_publishes_evaluation.2.2 Unit Unit (engine (.ok (both.cut 1))) ""
        ⟨⟨false, .ahead⟩, ()⟩ [] rfl (answers _)
    exact (published.compiled (.inr ⟨rfl, steady⟩) [.bare "light_on"]).1 rfl

end VerbChain
