import VerbChain.Engine
import VerbChain.Proofs.Evaluation.Reach
import VerbChain.Proofs.Language.Entries

namespace VerbChain

/-!
# The task log

A program of a language of tasks is executed amid others, who may touch its
token behind every call.  Each call that completes puts its entry behind the
log, so in front of any call the log is what it was in the beginning and one
entry for each call in front.  An execution that stops, for whatever reason,
leaves the log as it was in front of the call at which it stopped.

So the log of a session, of any executions that follow each other on one engine,
is the entries of all calls that completed, in order.
-/

/-- A handler amid others, who may touch the token behind it. -/
def Handler.amid (handler : Handler σ κ ω) (others : World σ → CancelToken) :
    Handler σ κ ω :=
  fun bag context world =>
    match handler bag context world with
    | (answer, next) => (answer, { next with token := others next })

/-- Handlers amid others. -/
def Registry.amid (registry : Registry σ κ ω)
    (others : World σ → CancelToken) : Registry σ κ ω :=
  registry.mapEntries fun _ handler => handler.amid others

/-- An engine amid others. -/
def Engine.amid (engine : Engine σ κ ω ε ρ) (others : World σ → CancelToken) :
    Engine σ κ ω ε ρ :=
  { engine with registry := engine.registry.amid others }

/-- A verb has a handler amid others when it has a handler. -/
theorem Registry.find?_amid
    (registry : Registry σ κ ω)
    (others : World σ → CancelToken)
    (verb : String) :
    (registry.amid others).find? verb =
      (registry.find? verb).map fun handler => handler.amid others :=
  Table.find?_mapEntries _ registry verb

namespace Tasks

/--
A program to be executed, its token, and the others who may touch the token.
The log grows behind every call, so they may leave any token in front of each.
-/
structure Execution where
  source : String
  token : CancelToken
  others : World Log → CancelToken

/-- The answer of an execution on an engine, and the log that it leaves. -/
def Execution.perform (engine : DirectEngine Log) (log : Log)
    (execution : Execution) : Except EngineError Unit × Log :=
  match DirectEngine.execute (engine.amid execution.others) execution.source
    ⟨execution.token, log⟩ with
  | (answer, next) => (answer, next.state)

/-- Why an execution stops at a call, with a token in front of it. -/
inductive StopsAt (completed : Nat) (token : CancelToken) (call : Call) :
    EngineError → Prop where
  | cancelled
      (cancelled : token.isCancelled = true) :
      StopsAt completed token call (.cancelled completed)
  | unknown
      (live : token.isCancelled = false)
      (noVerb : ¬HasVerb call.name) :
      StopsAt completed token call (.unknownCall call.name)
  | refused
      {cause : ArgumentError}
      (live : token.isCancelled = false)
      (refuses : Refuses call cause) :
      StopsAt completed token call (.handler call.name (.argument cause))

/--
The entries of a chain in a world.  There is one for each call that completes,
and with every such call the log has one entry more.  At the call behind them the
evaluation stops; this call and those behind it add nothing.
-/
structure Mirrors (engine : DirectEngine Log) (chain : Chain)
    (world : World Log) (entries : List String)
    (failure : Option EngineError) : Prop where
  written : List.Forall₂ Writes (chain.cut entries.length).calls entries
  front :
    ∀ count ≤ entries.length, ∃ outputs token,
      engine.interpret (chain.cut count) world =
        (.ok outputs, ⟨token, world.state ++ entries.take count⟩)
  whole : failure = none → entries.length = chain.length
  stopped :
    ∀ error, failure = some error → ∃ call outputs token,
      chain.calls[entries.length]? = some call ∧
        engine.interpret (chain.cut entries.length) world =
          (.ok outputs, ⟨token, world.state ++ entries⟩) ∧
        StopsAt entries.length token call error
  behind :
    ∀ error, failure = some error → ∀ count > entries.length, ∃ token,
      engine.interpret (chain.cut count) world =
        (.error error, ⟨token, world.state ++ entries⟩)

/-- The answer of an execution that stopped because of an error, or did not. -/
def answerOf : Option EngineError → Except EngineError Unit
  | none => .ok ()
  | some error => .error error

/-- What an execution adds to the log. -/
inductive Adds (engine : DirectEngine Log) (log : Log)
    (execution : Execution) : List String → Prop where
  | unread
      {error : EngineError}
      (unread : engine.parse execution.source = .error error)
      (performed : execution.perform engine log = (.error error, log)) :
      Adds engine log execution []
  | read
      {chain : Chain}
      {entries : List String}
      {failure : Option EngineError}
      (read : engine.parse execution.source = .ok chain)
      (mirrors :
        Mirrors (engine.amid execution.others) chain ⟨execution.token, log⟩
          entries failure)
      (performed :
        execution.perform engine log = (answerOf failure, log ++ entries)) :
      Adds engine log execution entries

/-- What executions add that follow each other. -/
inductive AddsAll (engine : DirectEngine Log) :
    Log → List Execution → List (List String) → Prop where
  | nil (log : Log) : AddsAll engine log [] []
  | cons
      {log : Log}
      {execution : Execution}
      {rest : List Execution}
      {entries : List String}
      {added : List (List String)}
      (first : Adds engine log execution entries)
      (others : AddsAll engine (log ++ entries) rest added) :
      AddsAll engine log (execution :: rest) (entries :: added)

section Walk

variable {others : World Log → CancelToken} {call : Call}

/-- All that a handler does amid others: it writes an entry, or it refuses. -/
theorem writes_or_refuses_amid
    {handler : DirectHandler Log}
    (found : (registry.amid others).find? call.name = some handler)
    (world : World Log) :
    (∃ line token, Writes call line ∧
      handler (.ofArguments call.arguments) () world =
        (.ok ⟨(), none⟩, ⟨token, world.state ++ [line]⟩)) ∨
      ∃ cause token, Refuses call cause ∧
        handler (.ofArguments call.arguments) () world =
          (.error (.argument cause), ⟨token, world.state⟩) := by
  rw [Registry.find?_amid, Option.map_eq_some_iff] at found
  obtain ⟨own, found, rfl⟩ := found
  have verb : HasVerb call.name := by
    by_contra noVerb
    rw [find?_eq_none_iff.2 noVerb] at found
    cases found
  rcases writes_or_refuses verb with ⟨line, writes⟩ | ⟨cause, refuses⟩
  · obtain ⟨same, foundToo, ran⟩ := writes.exists_handler
    rw [found] at foundToo
    cases foundToo
    refine .inl ⟨line, others ⟨world.token, world.state ++ [line]⟩, writes, ?_⟩
    rw [Handler.amid, ran]
  · obtain ⟨same, foundToo, ran⟩ := refuses.exists_handler
    rw [found] at foundToo
    cases foundToo
    refine .inr ⟨cause, others world, refuses, ?_⟩
    rw [Handler.amid, ran]

/-- A call that completes puts its entry behind the log. -/
private theorem exists_line_of_completes
    {start after : Moment Unit (List Unit) Log}
    {deeds : List (Deed Unit Unit)}
    (completes :
      Completes (registry.amid others) Evaluation.keeping call start deeds
        after) :
    ∃ line, Writes call line ∧
      after.world.state = start.world.state ++ [line] := by
  cases completes with
  | @proceed context received taken world acted last handler outcome live found
      ran delivered =>
      cases delivered
      rcases writes_or_refuses_amid found world with
        ⟨line, token, writes, same⟩ | ⟨cause, token, refuses, same⟩
      · cases ran.symm.trans same
        exact ⟨line, writes, rfl⟩
      · cases ran.symm.trans same

/-- A call that stops an evaluation leaves the log. -/
private theorem stopsAt_of_halts
    {moment : Moment Unit (List Unit) Log}
    {error : EngineError}
    {deeds : List (Deed Unit Unit)}
    {received : List Unit}
    {next : World Log}
    {completed : Nat}
    (halts :
      Halts (registry.amid others) Evaluation.keeping completed call moment
        (.error error) deeds received next) :
    StopsAt completed moment.world.token call error ∧
      next.state = moment.world.state := by
  cases halts with
  | cancelled cancelled => exact ⟨.cancelled cancelled, rfl⟩
  | unknown live missing =>
      rw [Registry.find?_amid, Option.map_eq_none_iff] at missing
      exact ⟨.unknown live (find?_eq_none_iff.1 missing), rfl⟩
  | @failed context received world acted handler cause live found ran =>
      rcases writes_or_refuses_amid found world with
        ⟨line, token, writes, same⟩ | ⟨cause, token, refuses, same⟩
      · cases ran.symm.trans same
      · cases ran.symm.trans same
        exact ⟨.refused live refuses, rfl⟩

/--
Calls that complete have an entry each.  Any number of them from the front leave
the log with their entries behind it.
-/
theorem exists_entries_of_completesAll
    {start final : Moment Unit (List Unit) Log}
    {done : List Call}
    {deeds : List (Deed Unit Unit)}
    (all :
      CompletesAll (registry.amid others) Evaluation.keeping start done deeds
        final) :
    ∃ entries, List.Forall₂ Writes done entries ∧
      final.world.state = start.world.state ++ entries ∧
      ∀ count ≤ entries.length, ∃ deeds moment,
        CompletesAll (registry.amid others) Evaluation.keeping start
            (done.take count) deeds moment ∧
          moment.world.state = start.world.state ++ entries.take count := by
  -- the entries grow by one line with each call, and so do those of each front
  induction all with
  | nil moment =>
      refine ⟨[], .nil, (List.append_nil _).symm, fun count _ => ?_⟩
      rw [List.take_nil, List.take_nil, List.append_nil]
      exact ⟨[], moment, .nil moment, rfl⟩
  | @cons start middle final call rest deeds later first others
      inductionHypothesis =>
      obtain ⟨line, writes, behind⟩ := exists_line_of_completes first
      obtain ⟨entries, written, last, front⟩ := inductionHypothesis
      refine ⟨line :: entries, .cons writes written, ?_, fun count inside => ?_⟩
      · rw [last, behind, List.append_assoc, List.singleton_append]
      · cases count with
        | zero =>
            rw [List.take_zero, List.take_zero, List.append_nil]
            exact ⟨[], start, .nil start, rfl⟩
        | succ count =>
            obtain ⟨deeds, moment, completed, left⟩ :=
              front count (Nat.le_of_succ_le_succ inside)
            refine ⟨_, moment, .cons first completed, ?_⟩
            rw [left, behind, List.append_assoc, List.singleton_append,
              List.take_succ_cons]

end Walk

section Mirroring

variable {engine : DirectEngine Log} {others : World Log → CancelToken}
  {world : World Log}

/-- An evaluation of completed calls has the entries of those in front. -/
private theorem interpret_cut_of_front
    {calls : List Call}
    {count : Nat}
    {deeds : List (Deed Unit Unit)}
    {moment : Moment Unit (List Unit) Log}
    {log : Log}
    (tasks : engine.registry = registry)
    (all :
      CompletesAll (registry.amid others) Evaluation.keeping
        ⟨engine.convention.start, [], world⟩ (calls.take count) deeds moment)
    (left : moment.world.state = log) :
    ∃ outputs token,
      (engine.amid others).interpret (Chain.cut ⟨calls⟩ count) world =
        (.ok outputs, ⟨token, log⟩) := by
  rw [Engine.interpret, Engine.amid, tasks, Chain.cut]
  rw [Evaluation.interpret_of_completesAll all]
  exact ⟨_, moment.world.token, by rw [← left]⟩

/-- Every chain is evaluated to entries, and to an error where it stops. -/
theorem exists_mirrors
    (tasks : engine.registry = registry)
    (others : World Log → CancelToken)
    (chain : Chain)
    (world : World Log) :
    ∃ entries failure,
      Mirrors (engine.amid others) chain world entries failure := by
  obtain ⟨calls⟩ := chain
  rcases Evaluation.completesAll_or_fails engine.convention
      (registry.amid others) calls world with
    ⟨deeds, final, all⟩ | ⟨done, call, rest, deeds, moment, error, last,
      received, next, rfl, before, halts⟩
  · obtain ⟨entries, written, _, front⟩ := exists_entries_of_completesAll all
    have length := written.length_eq
    refine ⟨entries, none, ?_, ?_, ?_, ?_, ?_⟩
    · rw [← length, Chain.cut, List.take_length]
      exact written
    · intro count inside
      obtain ⟨deeds, moment, completed, left⟩ := front count inside
      exact interpret_cut_of_front tasks completed left
    · exact fun _ => length.symm
    · intro error failed
      cases failed
    · intro error failed
      cases failed
  · obtain ⟨entries, written, left, front⟩ :=
      exists_entries_of_completesAll before
    obtain ⟨stops, kept⟩ := stopsAt_of_halts halts
    have length := written.length_eq
    refine ⟨entries, some error, ?_, ?_, ?_, ?_, ?_⟩
    · rw [← length, Chain.cut_append]
      exact written
    · intro count inside
      obtain ⟨deeds, moment, completed, left⟩ := front count inside
      have same : (done ++ call :: rest).take count = done.take count :=
        List.take_append_of_le_length (length ▸ inside)
      rw [← same] at completed
      exact interpret_cut_of_front tasks completed left
    · intro finished
      cases finished
    · rintro _ ⟨rfl⟩
      refine ⟨call, moment.received, moment.world.token, ?_, ?_, ?_⟩
      · rw [← length, List.getElem?_append_right (Nat.le_refl _), Nat.sub_self]
        rfl
      · rw [Engine.interpret, Engine.amid, tasks, ← length, Chain.cut_append,
          Evaluation.interpret_of_completesAll before, ← left]
      · rw [← length]
        exact stops
    · rintro _ ⟨rfl⟩ count beyond
      -- what is cut off behind the call at which it stops is never reached
      obtain ⟨more, rfl⟩ := Nat.exists_eq_add_of_lt beyond
      have shape :
          Chain.cut ⟨done ++ call :: rest⟩ (entries.length + more + 1) =
            ⟨done ++ call :: rest.take more⟩ := by
        rw [Chain.cut, ← length, Nat.add_assoc, List.take_length_add_append,
          List.take_succ_cons]
      rw [Engine.interpret, Engine.amid, tasks, shape,
        Evaluation.interpret_of_halts before halts, ← left, ← kept]
      exact ⟨next.token, rfl⟩

/-- An evaluated chain is executed to its entries. -/
theorem Mirrors.executeChain_eq
    {chain : Chain}
    {entries : List String}
    {failure : Option EngineError}
    (mirrors : Mirrors engine chain world entries failure) :
    ∃ token,
      DirectEngine.executeChain engine chain world =
        (answerOf failure, ⟨token, world.state ++ entries⟩) := by
  cases failure with
  | none =>
      obtain ⟨outputs, token, evaluated⟩ :=
        mirrors.front entries.length (Nat.le_refl _)
      rw [mirrors.whole rfl, Chain.cut_length, ← mirrors.whole rfl,
        List.take_length] at evaluated
      rw [DirectEngine.executeChain, evaluated]
      exact ⟨token, rfl⟩
  | some error =>
      obtain ⟨call, _, _, place, _, _⟩ := mirrors.stopped error rfl
      obtain ⟨inside, _⟩ := List.getElem?_eq_some_iff.1 place
      obtain ⟨token, evaluated⟩ :=
        mirrors.behind error rfl chain.length inside
      rw [Chain.cut_length] at evaluated
      rw [DirectEngine.executeChain, evaluated]
      exact ⟨token, rfl⟩

/-- Every execution adds the entries of its chain. -/
theorem exists_adds
    (tasks : engine.registry = registry)
    (log : Log)
    (execution : Execution) :
    ∃ entries, Adds engine log execution entries := by
  have parsed (others : World Log → CancelToken) :
      (engine.amid others).parse execution.source =
        engine.parse execution.source :=
    rfl
  cases read : engine.parse execution.source with
  | error error =>
      refine ⟨[], .unread read ?_⟩
      rw [Execution.perform, DirectEngine.execute, parsed, read]
  | ok chain =>
      obtain ⟨entries, failure, mirrors⟩ :=
        exists_mirrors tasks execution.others chain ⟨execution.token, log⟩
      obtain ⟨token, executed⟩ := mirrors.executeChain_eq
      refine ⟨entries, .read read mirrors ?_⟩
      rw [Execution.perform, DirectEngine.execute, parsed, read]
      simp only
      rw [executed]

theorem Adds.log_eq
    {log : Log}
    {execution : Execution}
    {entries : List String}
    (adds : Adds engine log execution entries) :
    (execution.perform engine log).2 = log ++ entries := by
  cases adds with
  | unread _ performed => rw [performed, List.append_nil]
  | read _ _ performed => rw [performed]

/-- Every session adds the entries of its executions, one after the other. -/
theorem exists_addsAll
    (tasks : engine.registry = registry)
    (session : List Execution)
    (log : Log) :
    ∃ added,
      AddsAll engine log session added ∧
        session.foldl (fun log execution => (execution.perform engine log).2)
            log =
          log ++ added.flatten := by
  induction session generalizing log with
  | nil => exact ⟨[], .nil log, (List.append_nil log).symm⟩
  | cons execution rest inductionHypothesis =>
      obtain ⟨entries, first⟩ := exists_adds tasks log execution
      obtain ⟨added, others, left⟩ := inductionHypothesis (log ++ entries)
      refine ⟨entries :: added, .cons first others, ?_⟩
      rw [List.foldl_cons, first.log_eq, left, List.flatten_cons,
        List.append_assoc]

/--
Whatever a session of executions on an engine of the language, and whoever
touches their tokens: the log is what it was and the entries of all calls that
completed behind it, in order.  A call writes one entry, which it determines.
A program that is not read adds nothing, and nor do the call at which a chain
stops and those behind it; in front of each call the log has the entries of the
calls in front.
-/
theorem log_mirrors_calls
    (tasks : engine.registry = registry)
    (session : List Execution)
    (log : Log) :
    (∀ call line other, Writes call line → Writes call other → line = other) ∧
      ∃ added,
        AddsAll engine log session added ∧
          session.foldl
              (fun log execution => (execution.perform engine log).2) log =
            log ++ added.flatten :=
  ⟨fun _ _ _ => Writes.unique, exists_addsAll tasks session log⟩

/--
A name that is no text spoils a call whose first positional argument is one, an
unknown verb and a cancellation behind the first call stop the others, and what
was written before stays.
-/
theorem log_mirrors_calls_day :
    let engine : DirectEngine Log :=
      ⟨.direct, "", Chain.ofSource, registry,
        fun _ device => (.ok (), device), .standard⟩
    let alone : World Log → CancelToken := World.token
    let session : List Execution :=
      [⟨"task('write').note(text='draft first').done('write')", .fresh, alone⟩,
        ⟨"task('plan', name=1).task('plan')", .fresh, alone⟩,
        ⟨"pipe(xs, @f, @g).task('plan')", .fresh, fun _ => .expired⟩,
        ⟨"task(", .fresh, alone⟩,
        ⟨"task(plan).plan().done(plan)", .fresh, alone⟩]
    engine.registry = registry ∧
      ∃ added,
        AddsAll engine ["note:today"] session added ∧
          added.flatten =
            ["task:write", "note:draft first", "done:write", "pipe:f,g",
              "task:plan"] := by
  intro engine alone session
  have tasks : engine.registry = registry := rfl
  refine ⟨tasks, ?_⟩
  obtain ⟨added, all, left⟩ :=
    (log_mirrors_calls tasks session ["note:today"]).2
  have evening :
      session.foldl (fun log execution => (execution.perform engine log).2)
          ["note:today"] =
        ["note:today", "task:write", "note:draft first", "done:write",
          "pipe:f,g", "task:plan"] := by
    decide +kernel
  exact ⟨added, all, List.append_cancel_left (left.symm.trans evening)⟩

end Mirroring

end Tasks

end VerbChain
