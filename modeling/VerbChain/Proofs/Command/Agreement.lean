import VerbChain.Command.Workspace
import VerbChain.Proofs.Language.Outcomes
import VerbChain.Proofs.Plan.Account
import VerbChain.Proofs.Stream.Publication

namespace VerbChain

/-!
# Running and streaming a program

A run prints the actions of a program once all of it is compiled, and a stream
prints the actions of each call when the call is completed.  Printing succeeds
and nobody cancels, so the two can differ only where a call fails: there the
stream has printed the actions of the calls in front of it, and the run has
printed nothing.  Both report the same error.
-/

theorem Report.lines_cons
    (text : String)
    (texts : List String) :
    lines (text :: texts) = text ++ "\n" ++ lines texts :=
  String.join_cons

namespace Executor

/-- Printing an action at the end of a text adds its line. -/
theorem printing_append
    (format : PrintFormat)
    (action : Action)
    (token : CancelToken)
    (printed : String) :
    printing format append action ⟨token, printed⟩ =
      (.ok (), ⟨token, printed ++ (action.line format ++ "\n")⟩) := by
  rw [← String.append_assoc]
  rfl

/-- Under a live token a whole plan is printed, a line for each action. -/
theorem carriesOut_printing
    {token : CancelToken}
    (live : token.isCancelled = false)
    (format : PrintFormat)
    (plan : Plan)
    (printed : String) :
    CarriesOut (printing format append) ⟨token, printed⟩ plan
      ⟨token, printed ++ Report.lines (plan.map (Action.line format))⟩ := by
  induction plan generalizing printed with
  | nil =>
      have same : printed ++ Report.lines [] = printed := String.append_empty
      rw [List.map_nil, same]
      exact .nil _
  | cons action rest inductionHypothesis =>
      rw [List.map_cons, Report.lines_cons, ← String.append_assoc]
      exact
        .cons live (printing_append format action token printed)
          (inductionHypothesis _)

end Executor

namespace Report

section Printing

variable {registry : Registry Unit Context (List Action)}
  {settings : Settings} {source : String}

/-- Carrying out a plan under a live token prints it. -/
theorem executePlan_printingEngine
    {token : CancelToken}
    (live : token.isCancelled = false)
    (plan : Plan) :
    (printingEngine registry settings).executePlan plan ⟨token, ""⟩ =
      (.ok (),
        ⟨token, lines (plan.map (Action.line settings.printFormat))⟩) := by
  have carried :=
    Executor.carriesOut_printing live settings.printFormat plan ""
  rw [String.empty_append] at carried
  have executed := Plan.execute_of_account (.finished carried)
  rw [PlanningEngine.executePlan, PlanningEngine.executeWith]
  simp only [printingEngine, executed]

/-- A plan is printed when it is carried out. -/
theorem ofPlan_printingEngine (plan : Plan) :
    ofPlan (printingEngine registry settings) plan =
      success (lines (plan.map (Action.line settings.printFormat))) := by
  rw [ofPlan, executePlan_printingEngine rfl]
  rfl

/-- Items of actions are printed, and what is behind them comes next. -/
theorem ofActions_printing
    (format : PrintFormat)
    (plan : Plan)
    (rest : List (StreamItem Action))
    (printed : String) :
    ofActions (Executor.printing format Executor.append)
        (plan.map .ok ++ rest) printed =
      ofActions (Executor.printing format Executor.append) rest
        (printed ++ lines (plan.map (Action.line format))) := by
  induction plan generalizing printed with
  | nil =>
      have same : printed ++ lines [] = printed := String.append_empty
      rw [List.map_nil, List.nil_append, List.map_nil, same]
  | cons action others inductionHypothesis =>
      rw [List.map_cons, List.cons_append, ofActions,
        Executor.printing_append]
      simp only
      rw [inductionHypothesis, List.map_cons, lines_cons,
        String.append_assoc]

/-- Streaming prints the actions of a stream, up to its error if it has one. -/
theorem ofStream_printingEngine
    {plan : Plan}
    {rest : List (StreamItem Action)}
    (streamed :
      ((printingEngine registry settings).stream source freshWorld).1.consumed
          [] =
        plan.map .ok ++ rest) :
    ofStream (printingEngine registry settings) source =
      ofActions (printingEngine registry settings).executor rest
        (lines (plan.map (Action.line settings.printFormat))) := by
  have drained :
      ((printingEngine registry settings).stream source
          freshWorld).1.drain.1 =
        plan.map .ok ++ rest :=
    streamed
  rw [ofStream, drained]
  refine (ofActions_printing settings.printFormat plan rest "").trans ?_
  rw [String.empty_append]
  rfl

end Printing

section Running

variable {engine : PlanningEngine Unit String} {source : String}
  {chain : Chain} {error : EngineError}

private theorem parser_of_parsed (parsed : engine.parse source = .ok chain) :
    engine.parser source = .ok chain := by
  unfold Engine.parse at parsed
  split at parsed
  · next read =>
      cases parsed
      exact read
  · cases parsed

private theorem exists_cause_of_unparsed
    (unparsed : engine.parse source = .error error) :
    ∃ cause, engine.parser source = .error cause ∧ error = .parse cause := by
  unfold Engine.parse at unparsed
  split at unparsed
  · cases unparsed
  · next cause rejected =>
      cases unparsed
      exact ⟨cause, rejected, rfl⟩

theorem compiled_of_parsed (parsed : engine.parse source = .ok chain) :
    compiled engine source = (engine.compileChain chain freshWorld).1 := by
  rw [compiled, PlanningEngine.compile, parsed]
  rfl

theorem compiled_of_unparsed (unparsed : engine.parse source = .error error) :
    compiled engine source = .error error := by
  rw [compiled, PlanningEngine.compile, unparsed]

/-- Running a program that does not compile prints nothing. -/
private theorem ofRun_of_error
    (failed : compiled engine source = .error error) :
    ofRun engine source = failure "" error.message := by
  rw [ofRun, PlanningEngine.run]
  cases parsed : engine.parse source with
  | error cause =>
      rw [compiled_of_unparsed parsed] at failed
      cases failed
      rfl
  | ok chain =>
      rw [compiled_of_parsed parsed] at failed
      rcases ran : engine.compileChain chain freshWorld with ⟨answer, next⟩
      rw [ran] at failed
      cases failed
      simp only [ran]
      rfl

/-- Running a program that compiles is carrying out its plan. -/
theorem ofRun_of_compiled
    {plan : Plan}
    (computes : engine.registry.Computes)
    (completed : compiled engine source = .ok plan) :
    ofRun engine source = ofPlan engine plan := by
  rw [ofRun, PlanningEngine.run]
  cases parsed : engine.parse source with
  | error cause =>
      rw [compiled_of_unparsed parsed] at completed
      cases completed
  | ok chain =>
      rw [compiled_of_parsed parsed] at completed
      have live : freshWorld.token.isCancelled = false := rfl
      obtain ⟨answer, evaluated, _⟩ :=
        Evaluation.interpret_of_computes computes engine.convention chain live
      -- Nothing that is compiled touches the token of the run.
      have left : (engine.compileChain chain freshWorld).2 = freshWorld := by
        rw [PlanningEngine.compileChain, Engine.interpret, evaluated]
        cases answer <;> rfl
      rcases ran : engine.compileChain chain freshWorld with ⟨answer, next⟩
      rw [ran] at completed left
      cases completed
      cases left
      simp only [ran]
      rfl

end Running

/--
What a run and a stream of one program report.  A program that compiles prints
its plan either way, and one that is not read prints nothing either way.  One
that fails at a call prints nothing when it is run, and the actions of the calls
in front of that call when it is streamed.  There is no fourth way.
-/
structure Agree (engine : PlanningEngine Unit String) (source : String)
    (ran streamed : Report) : Prop where
  compiles :
    ∀ plan, compiled engine source = .ok plan →
      ran =
          success
            (lines (plan.map (Action.line engine.settings.printFormat))) ∧
        streamed = ran
  unparsed :
    ∀ error, engine.parse source = .error error →
      ran = failure "" error.message ∧ streamed = ran
  fails :
    ∀ chain, engine.parse source = .ok chain →
      ∀ completed plan error, completed < chain.length →
        (engine.compileChain (chain.cut completed) freshWorld).1 = .ok plan →
          (engine.compileChain (chain.cut (completed + 1)) freshWorld).1 =
              .error error →
            ran = failure "" error.message ∧
              streamed =
                failure
                  (lines
                    (plan.map (Action.line engine.settings.printFormat)))
                  error.message
  noOther :
    (∃ plan, compiled engine source = .ok plan) ∨
      (∃ error, engine.parse source = .error error) ∨
        ∃ chain completed plan error,
          engine.parse source = .ok chain ∧ completed < chain.length ∧
            (engine.compileChain (chain.cut completed) freshWorld).1 =
              .ok plan ∧
            (engine.compileChain (chain.cut (completed + 1)) freshWorld).1 =
              .error error

section Agreeing

variable {registry : Registry Unit Context (List Action)}

/-- An evaluation that fails at a call fails the chain with its error. -/
private theorem compileChain_of_cut
    {engine : PlanningEngine Unit String}
    {chain : Chain}
    {completed : Nat}
    {error : EngineError}
    (inside : completed < chain.length)
    (behind :
      (engine.compileChain (chain.cut (completed + 1)) freshWorld).1 =
        .error error) :
    (engine.compileChain chain freshWorld).1 = .error error := by
  obtain ⟨next, failed⟩ :=
    PlanningEngine.compileChain_eq_error_iff.1 behind
  have evaluated := Evaluation.interpret_cut_of_error failed inside
  rw [Chain.cut_length] at evaluated
  exact PlanningEngine.compileChain_eq_error_iff.2 ⟨next, evaluated⟩

/-- Running and streaming agree where verbs describe plain actions. -/
theorem agree_of_describes
    (describes : registry.Describes)
    (settings : Settings)
    (source : String) :
    Agree (printingEngine registry settings) source
      (ofRun (printingEngine registry settings) source)
      (ofStream (printingEngine registry settings) source) := by
  have answers : (printingEngine registry settings).registry.Answers :=
    describes.answers
  have publishes :=
    PlanningEngine.stream_publishesPlan rfl answers source freshWorld []
  refine ⟨?_, ?_, ?_, ?_⟩
  · intro plan completed
    have streamed := (publishes.compiled (.inl rfl) plan).1 completed
    rw [← List.append_nil (plan.map _)] at streamed
    rw [ofRun_of_compiled describes.computes completed, ofPlan_printingEngine,
      ofStream_printingEngine streamed]
    exact ⟨rfl, rfl⟩
  · intro error unparsed
    obtain ⟨cause, rejected, rfl⟩ := exists_cause_of_unparsed unparsed
    have streamed :
        ((printingEngine registry settings).stream source
            freshWorld).1.consumed [] =
          ([] : Plan).map .ok ++ [.error (.parse cause)] := by
      rw [Engine.stream_of_rejected rejected, Channel.consumed_opened]
      rfl
    rw [ofRun_of_error (compiled_of_unparsed unparsed),
      ofStream_printingEngine streamed]
    exact ⟨rfl, rfl⟩
  · intro chain parsed completed plan error inside front behind
    have streamed :=
      publishes.front chain (parser_of_parsed parsed) completed plan error
        inside front behind
    have failed := compileChain_of_cut inside behind
    rw [← compiled_of_parsed parsed] at failed
    rw [ofRun_of_error failed, ofStream_printingEngine streamed]
    exact ⟨rfl, rfl⟩
  · cases parsed : (printingEngine registry settings).parse source with
    | error error => exact .inr (.inl ⟨error, rfl⟩)
    | ok chain =>
        rw [compiled_of_parsed parsed]
        cases evaluated :
            ((printingEngine registry settings).compileChain chain
              freshWorld).1 with
        | ok plan => exact .inl ⟨plan, rfl⟩
        | error error =>
            obtain ⟨completed, plan, inside, front, behind⟩ :=
              publishes.fails chain (parser_of_parsed parsed) error evaluated
            exact
              .inr (.inr
                ⟨chain, completed, plan, error, rfl, inside, front, behind⟩)

end Agreeing

end Report

namespace Invocation

theorem onSource_of_read
    {source : Option String}
    {workspace : Workspace}
    {text : String}
    (read :
      (readSource source : StateM Workspace _) workspace =
        (.ok text, workspace))
    (report : String → Report) :
    (onSource source report : StateM Workspace Report) workspace =
      (report text, workspace) := by
  simp only [onSource, bind, StateT.bind, read]
  rfl

/--
In the languages of music and of functions, whatever the settings, a program is
streamed as it is run: if it compiles, both print the same lines; if it is not
read, both print nothing and report the same error; and if it fails at a call,
then the run prints nothing, the stream prints the actions of the calls in front
of that call and nothing else, and both report the same error.
-/
theorem stream_agrees_with_run
    {registry : Registry Unit Context (List Action)}
    {source : Option String}
    {workspace : Workspace}
    {text : String}
    (shipped : registry ∈ planningRegistries)
    (read :
      (readSource source : StateM Workspace _) workspace =
        (.ok text, workspace))
    (settings : Settings) :
    let engine := Report.printingEngine registry settings
    ∃ ran streamed,
      (runPlanning engine (.run source) : StateM Workspace Report) workspace =
          (ran, workspace) ∧
        (runPlanning engine (.stream source) : StateM Workspace Report)
            workspace =
          (streamed, workspace) ∧
        Report.Agree engine text ran streamed := by
  intro engine
  refine
    ⟨Report.ofRun engine text, Report.ofStream engine text, ?_, ?_,
      Report.agree_of_describes (Registry.describes_of_mem shipped) settings
        text⟩
  · exact onSource_of_read read _
  · exact onSource_of_read read _

/-- A track with a clip, and a verb nobody knows: the clip is streamed. -/
theorem stream_agrees_with_run_solo :
    let workspace : Workspace :=
      ⟨.ofList [], .ofList [],
        "track(name=\"Lead\").add_clip(start=-0, length=0.5).solo()"⟩
    let engine := Report.printingEngine Music.registry .standard
    ∃ ran streamed,
      Report.Agree engine workspace.input ran streamed ∧
        ran = ⟨1, "", "error: unknown call: solo\n"⟩ ∧
        streamed =
          ⟨1,
            "Action: create_track with payload: " ++
              "\x7b\"color\":\"\",\"name\":\"Lead\"\x7d\n" ++
              "Action: add_clip with payload: " ++
              "\x7b\"length\":0.5,\"start\":-0.0,\"track\":\"Lead\"\x7d\n",
            "error: unknown call: solo\n"⟩ := by
  intro workspace engine
  have read :
      (readSource none : StateM Workspace _) workspace =
        (.ok workspace.input, workspace) :=
    rfl
  obtain ⟨ran, streamed, run, stream, agree⟩ :=
    stream_agrees_with_run List.mem_cons_self read .standard
  refine ⟨ran, streamed, agree, ?_, ?_⟩
  · have printed :
        ((runPlanning engine (.run none) : StateM Workspace Report)
          workspace).1 = ran :=
      congrArg Prod.fst run
    rw [← printed]
    decide +kernel
  · have printed :
        ((runPlanning engine (.stream none) : StateM Workspace Report)
          workspace).1 = streamed :=
      congrArg Prod.fst stream
    rw [← printed]
    decide +kernel

end Invocation

end VerbChain
