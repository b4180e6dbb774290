import VerbChain.Engine
import VerbChain.Proofs.Evaluation.Reach
import VerbChain.Proofs.Evaluation.Transfer
import VerbChain.Proofs.Plan.Account

namespace VerbChain

/-!
# Running a program has no effect unless all of it compiles

A run walks the chain and then carries out the plan, and both look at the token
before each step.  The walk looks before each call only, so a token that the
last call cancels is found by the look before the first action.

A program may also be compiled by itself, under a token of its own.  What a run
hands over is then in front of that plan, too, and a run under a token that is
never cancelled fails with that error.
-/

namespace PlanningEngine

variable {engine : PlanningEngine σ ρ} {source : String} {chain : Chain}
  {world : World σ}

/-- Where the evaluation of a program starts. -/
def opening (engine : PlanningEngine σ ρ) (world : World σ) :
    Moment Context (List (List Action)) σ :=
  ⟨engine.convention.start, [], world⟩

/-- The same engine with an executor that records what it is handed. -/
def logged (engine : PlanningEngine σ ρ) :
    PlanningEngine σ (ρ × List Action) :=
  { engine with executor := engine.executor.logged }

theorem compileChain_of_completesAll
    {deeds : List (Deed Context (List Action))}
    {final : Moment Context (List (List Action)) σ}
    (all :
      CompletesAll engine.registry Evaluation.keeping (engine.opening world)
        chain.calls deeds final) :
    engine.compileChain chain world =
      (.ok final.received.flatten, final.world) := by
  have evaluated :
      engine.interpret chain world = (.ok final.received, final.world) :=
    Evaluation.interpret_of_completesAll all
  rw [compileChain, evaluated]

theorem compileChain_of_halts
    {done rest : List Call}
    {call : Call}
    {deeds last : List (Deed Context (List Action))}
    {moment : Moment Context (List (List Action)) σ}
    {error : EngineError}
    {received : List (List Action)}
    {next : World σ}
    (shape : chain.calls = done ++ call :: rest)
    (before :
      CompletesAll engine.registry Evaluation.keeping (engine.opening world)
        done deeds moment)
    (halts :
      Halts engine.registry Evaluation.keeping done.length call moment
        (.error error) last received next) :
    engine.compileChain chain world = (.error error, next) := by
  obtain ⟨calls⟩ := chain
  subst shape
  have evaluated :
      engine.interpret ⟨done ++ call :: rest⟩ world = (.error error, next) :=
    Evaluation.interpret_of_halts before halts rest
  rw [compileChain, evaluated]

/-- What a run does: nothing, unless the program compiles. -/
inductive Runs (engine : PlanningEngine σ ρ) (source : String)
    (world : World σ) (device : ρ) :
    Except EngineError Unit → List Action → Prop where
  | unparsed
      {error : EngineError}
      (parsed : engine.parse source = .error error) :
      Runs engine source world device (.error error) []
  | rejected
      {chain : Chain}
      {error : EngineError}
      {next : World σ}
      (parsed : engine.parse source = .ok chain)
      (failed : engine.compileChain chain world = (.error error, next)) :
      Runs engine source world device (.error error) []
  | executed
      {chain : Chain}
      {plan : Plan}
      {next : World σ}
      {answer : Except EngineError Nat}
      {handed : List Action}
      {final : World ρ}
      (parsed : engine.parse source = .ok chain)
      (compiled : engine.compileChain chain world = (.ok plan, next))
      (account :
        Plan.Account engine.executor plan ⟨next.token, device⟩ answer handed
          final) :
      Runs engine source world device (answer.map fun _ => ()) handed

/-- Every run does one of these, and a recording executor has recorded it. -/
theorem exists_runs
    (engine : PlanningEngine σ ρ)
    (source : String)
    (world : World σ)
    (device : ρ) :
    ∃ handed,
      engine.logged.run source world (device, []) =
          ((engine.run source world device).1,
            (engine.run source world device).2.1,
            (engine.run source world device).2.2, handed) ∧
        engine.Runs source world device (engine.run source world device).1
          handed := by
  cases parsed : engine.parse source with
  | error error =>
      have parsedToo : engine.logged.parse source = .error error := parsed
      refine ⟨[], ?_, ?_⟩
      · simp only [run, parsed, parsedToo]
      · simp only [run, parsed]
        exact .unparsed parsed
  | ok chain =>
      have parsedToo : engine.logged.parse source = .ok chain := parsed
      rcases compiled : engine.compileChain chain world with ⟨outcome, next⟩
      have compiledToo :
          engine.logged.compileChain chain world = (outcome, next) :=
        compiled
      cases outcome with
      | error error =>
          refine ⟨[], ?_, ?_⟩
          · simp only [run, parsed, parsedToo, compiled, compiledToo]
          · simp only [run, parsed, compiled]
            exact .rejected parsed compiled
      | ok plan =>
          obtain ⟨answer, handed, final, account⟩ :=
            Plan.exists_account engine.executor plan ⟨next.token, device⟩
          have executed := Plan.execute_of_account account
          have executedToo :
              plan.execute engine.logged.executor
                  ⟨next.token, (device, [])⟩ =
                (answer, final.logging handed) :=
            Plan.execute_of_account (account.logged [])
          refine ⟨handed, ?_, ?_⟩
          · simp only [run, parsed, parsedToo, compiled, compiledToo,
              executePlan, executeWith, executed, executedToo]
            cases answer <;> rfl
          · have ran :
                (engine.run source world device).1 =
                  answer.map fun _ => () := by
              simp only [run, parsed, compiled, executePlan, executeWith,
                executed]
              cases answer <;> rfl
            rw [ran]
            exact .executed parsed compiled account

theorem compiles_or_fails
    (engine : PlanningEngine σ ρ)
    (chain : Chain)
    (world : World σ) :
    (∃ deeds final,
      CompletesAll engine.registry Evaluation.keeping (engine.opening world)
        chain.calls deeds final) ∨
      ∃ done call rest deeds moment error last received next,
        chain.calls = done ++ call :: rest ∧
          CompletesAll engine.registry Evaluation.keeping
            (engine.opening world) done deeds moment ∧
          Halts engine.registry Evaluation.keeping done.length call moment
            (.error error) last received next :=
  Evaluation.completesAll_or_fails engine.convention engine.registry
    chain.calls world

/--
No moment that a program gets to in a world finds the token cancelled.  Of the
token of a compilation, which nobody holds but its handlers, this says that no
handler cancels it, and nothing else says so.
-/
def Undisturbed (engine : PlanningEngine σ ρ) (source : String)
    (world : World σ) : Prop :=
  ∀ chain, engine.parse source = .ok chain →
    engine.registry.NeverCancelled (engine.opening world) chain.calls

section Alone

variable {own : σ} (alike : engine.registry.AnswersAlike)
  (parsed : engine.parse source = .ok chain)
  (alone : engine.Undisturbed source ⟨.fresh, own⟩)

include alike parsed alone

/-- What completes in a run completes alike in a compilation by itself. -/
theorem compile_of_completesAll
    {deeds : List (Deed Context (List Action))}
    {final : Moment Context (List (List Action)) σ}
    (all :
      CompletesAll engine.registry Evaluation.keeping (engine.opening world)
        chain.calls deeds final) :
    (engine.compile source own).1 = .ok final.received.flatten := by
  obtain ⟨last, again⟩ := all.transfer alike (alone chain parsed)
  have compiled :
      engine.compileChain chain ⟨.fresh, own⟩ =
        (.ok final.received.flatten, last) :=
    compileChain_of_completesAll again
  simp only [compile, parsed, compiled]

/-- Under tokens that are never cancelled, both compilations agree. -/
theorem compile_of_undisturbed
    (undisturbed : engine.Undisturbed source world) :
    (engine.compile source own).1 = (engine.compileChain chain world).1 := by
  rcases engine.compiles_or_fails chain world with
    ⟨deeds, final, all⟩ | ⟨done, call, rest, deeds, moment, error, last,
      received, after, shape, before, halts⟩
  · rw [compile_of_completesAll alike parsed alone all,
      compileChain_of_completesAll all]
  -- both get to the call that fails, since neither token stops them before it
  · have inFront : done <+: chain.calls := ⟨call :: rest, shape.symm⟩
    have aloneInFront :
        engine.registry.NeverCancelled (engine.opening ⟨.fresh, own⟩) done :=
      fun front deeds moment within =>
        alone chain parsed front deeds moment (within.trans inFront)
    obtain ⟨last, again⟩ := before.transfer alike aloneInFront
    obtain ⟨final, haltsToo⟩ :=
      halts.transfer alike
        (undisturbed chain parsed done _ moment inFront before)
        (alone chain parsed done _ _ inFront again)
    have failed :
        engine.compileChain chain ⟨.fresh, own⟩ = (.error error, final) :=
      compileChain_of_halts shape again haltsToo
    rw [compileChain_of_halts shape before halts]
    simp only [compile, parsed, failed]

end Alone

namespace Runs

variable {device : ρ} {answer : Except EngineError Unit}
  {handed : List Action} {error : EngineError} {plan : Plan}
  {next : World σ} {done rest : List Call} {call : Call}
  {deeds : List (Deed Context (List Action))}
  {moment : Moment Context (List (List Action)) σ}
  (runs : engine.Runs source world device answer handed)

include runs

theorem eq_of_unparsed
    (parsed : engine.parse source = .error error) :
    answer = .error error ∧ handed = [] := by
  cases runs with
  | unparsed rejected =>
      rw [parsed] at rejected
      cases rejected
      exact ⟨rfl, rfl⟩
  | rejected accepted failed =>
      rw [parsed] at accepted
      cases accepted
  | executed accepted compiled account =>
      rw [parsed] at accepted
      cases accepted

theorem eq_of_failed
    (parsed : engine.parse source = .ok chain)
    (failed : engine.compileChain chain world = (.error error, next)) :
    answer = .error error ∧ handed = [] := by
  cases runs with
  | unparsed rejected =>
      rw [parsed] at rejected
      cases rejected
  | rejected parsedToo failedToo =>
      rw [parsed] at parsedToo
      cases parsedToo
      rw [failed] at failedToo
      cases failedToo
      exact ⟨rfl, rfl⟩
  | executed parsedToo compiled account =>
      rw [parsed] at parsedToo
      cases parsedToo
      rw [failed] at compiled
      cases compiled

private theorem exists_account_of_compiled
    (parsed : engine.parse source = .ok chain)
    (compiled : engine.compileChain chain world = (.ok plan, next)) :
    ∃ number final,
      Plan.Account engine.executor plan ⟨next.token, device⟩ number handed
          final ∧
        answer = number.map fun _ => () := by
  cases runs with
  | unparsed rejected =>
      rw [parsed] at rejected
      cases rejected
  | rejected parsedToo failed =>
      rw [parsed] at parsedToo
      cases parsedToo
      rw [compiled] at failed
      cases failed
  | executed parsedToo compiledToo account =>
      rw [parsed] at parsedToo
      cases parsedToo
      rw [compiled] at compiledToo
      cases compiledToo
      exact ⟨_, _, account, rfl⟩

theorem handed_prefix
    (parsed : engine.parse source = .ok chain)
    (compiled : engine.compileChain chain world = (.ok plan, next)) :
    handed <+: plan := by
  obtain ⟨number, final, account, -⟩ :=
    runs.exists_account_of_compiled parsed compiled
  exact account.handed_prefix

theorem handed_of_ok
    (parsed : engine.parse source = .ok chain)
    (compiled : engine.compileChain chain world = (.ok plan, next))
    (succeeded : answer = .ok ()) :
    handed = plan := by
  obtain ⟨number, final, account, answered⟩ :=
    runs.exists_account_of_compiled parsed compiled
  rw [succeeded] at answered
  cases account with
  | finished all => rfl
  | balked shape before balks => cases answered

/-- A program whose calls do not all complete has no effect. -/
theorem handed_of_halts
    (parsed : engine.parse source = .ok chain)
    (shape : chain.calls = done ++ call :: rest)
    (before :
      CompletesAll engine.registry Evaluation.keeping (engine.opening world)
        done deeds moment)
    {last : List (Deed Context (List Action))}
    {received : List (List Action)}
    (halts :
      Halts engine.registry Evaluation.keeping done.length call moment
        (.error error) last received next) :
    handed = [] :=
  (runs.eq_of_failed parsed (compileChain_of_halts shape before halts)).2

theorem handed_of_unknown
    (parsed : engine.parse source = .ok chain)
    (given : call ∈ chain.calls)
    (missing : engine.registry.find? call.name = none) :
    handed = [] := by
  rcases engine.compiles_or_fails chain world with
    ⟨deeds, final, all⟩ | ⟨done, halting, rest, deeds, moment, error, last,
      received, after, shape, before, halts⟩
  · obtain ⟨handler, found⟩ := all.exists_handler given
    rw [missing] at found
    cases found
  · exact runs.handed_of_halts parsed shape before halts

/--
The last call has no look at the token behind it in the walk, so there the look
before the first action is the one that counts.
-/
theorem handed_of_cancelled
    (parsed : engine.parse source = .ok chain)
    (inFront : done <+: chain.calls)
    (before :
      CompletesAll engine.registry Evaluation.keeping (engine.opening world)
        done deeds moment)
    (cancelled : moment.world.token.isCancelled = true) :
    handed = [] := by
  obtain ⟨behind, shape⟩ := inFront
  cases behind with
  | nil =>
      rw [List.append_nil] at shape
      rw [shape] at before
      obtain ⟨number, final, account, -⟩ :=
        runs.exists_account_of_compiled parsed
          (compileChain_of_completesAll before)
      exact account.handed_of_cancelled cancelled
  | cons call rest =>
      exact runs.handed_of_halts parsed shape.symm before
        (.cancelled cancelled)

theorem handed_of_failing
    {handler : PlanningHandler σ}
    {cause : HandlerError}
    (parsed : engine.parse source = .ok chain)
    (shape : chain.calls = done ++ call :: rest)
    (before :
      CompletesAll engine.registry Evaluation.keeping (engine.opening world)
        done deeds moment)
    (found : engine.registry.find? call.name = some handler)
    (failing :
      (handler (.ofArguments call.arguments) moment.context
        moment.world).1 = .error cause) :
    handed = [] := by
  cases cancelled : moment.world.token.isCancelled with
  | true =>
      exact runs.handed_of_cancelled parsed ⟨_, shape.symm⟩ before cancelled
  | false =>
      rcases ran :
          handler (.ofArguments call.arguments) moment.context moment.world
        with ⟨outcome, acted⟩
      rw [ran] at failing
      subst failing
      exact runs.handed_of_halts parsed shape before
        (.failed cancelled found ran)

theorem ok_iff :
    answer = .ok () ↔
      ∃ chain plan next last,
        engine.parse source = .ok chain ∧
          engine.compileChain chain world = (.ok plan, next) ∧
          CarriesOut engine.executor ⟨next.token, device⟩ plan last := by
  constructor
  · intro succeeded
    cases runs with
    | unparsed rejected => cases succeeded
    | rejected parsed failed => cases succeeded
    | @executed chain plan next number _ final parsed compiled account =>
        cases number with
        | error error => cases succeeded
        | ok count =>
            obtain ⟨last, all⟩ := account.ok_iff.1 ⟨count, rfl⟩
            exact ⟨chain, plan, next, last, parsed, compiled, all⟩
  · rintro ⟨chain, plan, next, last, parsed, compiled, all⟩
    obtain ⟨number, final, account, rfl⟩ :=
      runs.exists_account_of_compiled parsed compiled
    obtain ⟨count, rfl⟩ := account.ok_iff.2 ⟨last, all⟩
    rfl

end Runs

/--
What a run answers and hands to its executor.  The moments of a run are those
in front of a call that it looks at and, behind the last call, in front of the
first action; a cancellation between two looks is seen at the second one.
-/
structure RunsWhole (engine : PlanningEngine σ ρ) (source : String)
    (world : World σ) (device : ρ)
    (answer : Except EngineError Unit) (handed : List Action) : Prop where
  unparsed :
    ∀ error, engine.parse source = .error error →
      answer = .error error ∧ handed = []
  unknown :
    ∀ chain, engine.parse source = .ok chain →
      ∀ call ∈ chain.calls, engine.registry.find? call.name = none →
        handed = []
  failing :
    ∀ chain, engine.parse source = .ok chain →
      ∀ done call rest deeds moment handler cause,
        chain.calls = done ++ call :: rest →
          CompletesAll engine.registry Evaluation.keeping
            (engine.opening world) done deeds moment →
          engine.registry.find? call.name = some handler →
          (handler (.ofArguments call.arguments) moment.context
            moment.world).1 = .error cause →
          handed = []
  cancelled :
    ∀ chain, engine.parse source = .ok chain →
      ∀ done deeds moment,
        done <+: chain.calls →
          CompletesAll engine.registry Evaluation.keeping
            (engine.opening world) done deeds moment →
          moment.world.token.isCancelled = true →
          handed = []
  rejected :
    ∀ chain error next, engine.parse source = .ok chain →
      engine.compileChain chain world = (.error error, next) →
        answer = .error error ∧ handed = []
  inOrder :
    ∀ chain plan next, engine.parse source = .ok chain →
      engine.compileChain chain world = (.ok plan, next) →
        handed <+: plan
  /-- The plan that compiling gives, unless a handler cancels its token. -/
  inOrderOfCompiled :
    ∀ own plan, engine.Undisturbed source ⟨.fresh, own⟩ →
      (engine.compile source own).1 = .ok plan →
        handed <+: plan
  complete :
    ∀ chain plan next, engine.parse source = .ok chain →
      engine.compileChain chain world = (.ok plan, next) →
        answer = .ok () → handed = plan
  /-- The error of compiling, if handlers cancel neither token. -/
  sameError :
    ∀ own error, engine.Undisturbed source ⟨.fresh, own⟩ →
      engine.Undisturbed source world →
        (engine.compile source own).1 = .error error →
          answer = .error error ∧ handed = []
  /-- The outcome of compiling, if handlers cancel neither token. -/
  sameOutcome :
    ∀ own chain, engine.Undisturbed source ⟨.fresh, own⟩ →
      engine.Undisturbed source world →
        engine.parse source = .ok chain →
          (engine.compile source own).1 = (engine.compileChain chain world).1
  succeeds :
    answer = .ok () ↔
      ∃ chain plan next last,
        engine.parse source = .ok chain ∧
          engine.compileChain chain world = (.ok plan, next) ∧
          CarriesOut engine.executor ⟨next.token, device⟩ plan last

theorem runsWhole_of_runs
    {device : ρ}
    {answer : Except EngineError Unit}
    {handed : List Action}
    (alike : engine.registry.AnswersAlike)
    (runs : engine.Runs source world device answer handed) :
    engine.RunsWhole source world device answer handed where
  unparsed error parsed := runs.eq_of_unparsed parsed
  unknown chain parsed call given missing :=
    runs.handed_of_unknown parsed given missing
  failing chain parsed done call rest deeds moment handler cause shape before
      found failing :=
    runs.handed_of_failing parsed shape before found failing
  cancelled chain parsed done deeds moment inFront before cancelled :=
    runs.handed_of_cancelled parsed inFront before cancelled
  rejected chain error next parsed failed := runs.eq_of_failed parsed failed
  inOrder chain plan next parsed compiled := runs.handed_prefix parsed compiled
  inOrderOfCompiled own plan alone compiled := by
    cases runs with
    | unparsed rejected => exact List.nil_prefix
    | rejected parsed failed => exact List.nil_prefix
    | @executed chain found next number _ final parsed completed account =>
        rcases engine.compiles_or_fails chain world with
          ⟨deeds, final, all⟩ | ⟨done, call, rest, deeds, moment, error, last,
            received, after, shape, before, halts⟩
        · rw [compile_of_completesAll alike parsed alone all] at compiled
          rw [compileChain_of_completesAll all] at completed
          cases compiled
          cases completed
          exact account.handed_prefix
        · rw [compileChain_of_halts shape before halts] at completed
          cases completed
  complete chain plan next parsed compiled succeeded :=
    runs.handed_of_ok parsed compiled succeeded
  sameError own error alone undisturbed failed := by
    cases parsed : engine.parse source with
    | error cause =>
        simp only [compile, parsed] at failed
        cases failed
        exact runs.eq_of_unparsed parsed
    | ok chain =>
        rw [compile_of_undisturbed alike parsed alone undisturbed] at failed
        rcases compiled : engine.compileChain chain world
          with ⟨outcome, next⟩
        rw [compiled] at failed
        subst failed
        exact runs.eq_of_failed parsed compiled
  sameOutcome own chain alone undisturbed parsed :=
    compile_of_undisturbed alike parsed alone undisturbed
  succeeds := runs.ok_iff

/--
Whatever an engine of planning handlers that answer by their arguments and
context, its executor, a program and a world: a run hands over nothing unless
all of the program compiles, then actions of its plan in order, and it is a
success exactly when all of them are carried out.
-/
theorem run_is_whole
    (alike : engine.registry.AnswersAlike)
    (source : String)
    (world : World σ)
    (device : ρ) :
    ∃ handed,
      engine.logged.run source world (device, []) =
          ((engine.run source world device).1,
            (engine.run source world device).2.1,
            (engine.run source world device).2.2, handed) ∧
        engine.RunsWhole source world device
          (engine.run source world device).1 handed := by
  obtain ⟨handed, recorded, runs⟩ := engine.exists_runs source world device
  exact ⟨handed, recorded, runsWhole_of_runs alike runs⟩

/--
A lamp is planned to be switched on.  If that cancels the token, nothing is
handed over, although the call is the last one and completes; else the run is a
success.
-/
theorem run_is_whole_lamp :
    let planned : PlanningHandler Bool := fun _ _ world =>
      (.ok (Registry.oneAction (.bare "light_on")),
        if world.state then ⟨world.token.cancel, true⟩ else world)
    let engine : PlanningEngine Bool Unit :=
      ⟨.planning, "", fun _ => .ok ⟨[⟨"on", []⟩]⟩,
        Table.empty.insert "on" planned, fun _ device => (.ok (), device),
        .standard⟩
    (engine.logged.run "" ⟨.fresh, true⟩ ((), [])).2.2.2 = [] ∧
      (engine.run "" ⟨.fresh, false⟩ ()).1 = .ok () := by
  intro planned engine
  have alike : engine.registry.AnswersAlike := by
    intro verb handler found bag context world other
    simp only [engine, Table.find?_insert, Table.find?_empty] at found
    split at found
    · cases found
      rfl
    · cases found
  constructor
  · obtain ⟨handed, recorded, whole⟩ :=
      run_is_whole alike "" ⟨.fresh, true⟩ ()
    rw [recorded]
    exact whole.cancelled _ rfl [⟨"on", []⟩] _ _ (List.prefix_refl _)
      (.cons (.proceed rfl rfl rfl rfl) (.nil _)) rfl
  · obtain ⟨handed, recorded, whole⟩ :=
      run_is_whole alike "" ⟨.fresh, false⟩ ()
    exact whole.succeeds.2
      ⟨_, _, _, _, rfl, rfl, .cons rfl rfl (.nil _)⟩

end PlanningEngine

end VerbChain
