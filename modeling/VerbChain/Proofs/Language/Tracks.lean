import VerbChain.Language.Music
import VerbChain.Proofs.Evaluation.Reach
import VerbChain.Proofs.Functional.Conventions
import VerbChain.Proofs.Plan.WholeRun

namespace VerbChain

/-!
# Which track an action belongs to

A completed call of the language of music is one step: it describes one action
in the context it finds, and leaves a context.  The steps are listed once, with
what each of them was given.  A program that compiles is a run of such steps, so
its plan has one action for each call.

The context names the track that was made last, and only `track` changes it.  So
a clip or a mute belongs to the track of the nearest `track` call in front of
it, and to none where there is no such call.
-/

/-- An answer that is known to be one is the value it holds. -/
theorem eq_ok_of_isOk
    {answer : Except ε α}
    (isOk : answer.isOk = true)
    (fallback : α) :
    answer = .ok (answer.toOption.getD fallback) := by
  cases answer with
  | error error => cases isOk
  | ok value => rfl

namespace Action

@[simp] theorem kind_put
    (action : Action)
    (key : String)
    (value : Json) :
    (action.put key value).kind = action.kind :=
  rfl

@[simp] theorem kind_bare (kind : String) : (bare kind).kind = kind :=
  rfl

@[simp] theorem get?_bare (kind key : String) :
    (bare kind).get? key = none :=
  rfl

/-- An action has what was put into it last under a key. -/
theorem get?_put
    (action : Action)
    (key other : String)
    (value : Json) :
    (action.put key value).get? other =
      if other = key then some value else action.get? other :=
  Table.find?_insert action.payload key other value

end Action

namespace FunctionalCall

/-- The action of a functional call is of the kind of its verb. -/
theorem kind_toAction (call : FunctionalCall) :
    call.toAction.kind = call.verb.name := by
  have withValue_kind (action : Action) (key : String) (value : Option Value) :
      (withValue action key value).kind = action.kind := by
    cases value <;> rfl
  rw [toAction, withValue_kind, withValue_kind, references]
  cases call.verb <;> rfl

end FunctionalCall

namespace Music

/-- The kind of action that a verb describes. -/
def kindOf (verb : String) : String :=
  if verb = "track" then "create_track"
  else if verb = "mute" then "mute_track"
  else verb

/-- A completed call describes an action in a context, and leaves a context. -/
inductive Step (call : Call) (context : Context) : Action → Context → Prop where
  | track
      {value : Value}
      {name : String}
      (verb : call.name = "track")
      (given :
        (Bag.ofArguments call.arguments).get? "name" = some value)
      (named : value.text? = some name)
      (color : String) :
      Step call context
        (((Action.bare "create_track").put "name" (.string name)).put "color"
          (.string color))
        (context.put "track" (.string name))
  | clip
      {start length : Binary64}
      (verb : call.name = "add_clip")
      (starts :
        (Bag.ofArguments call.arguments).get? "start" = some (.number start))
      (lasts :
        (Bag.ofArguments call.arguments).get? "length" = some (.number length))
      (notBefore : start.less .zero = false)
      (positive : length.atMost .zero = false) :
      Step call context
        (tagged
          (((Action.bare "add_clip").put "start" start.toPayload).put "length"
            length.toPayload)
          context)
        context
  | mute
      (verb : call.name = "mute") :
      Step call context (tagged (.bare "mute_track") context) context
  | functional
      {verb : FunctionalVerb}
      {taken : FunctionalCall}
      (named : call.name = verb.name)
      (read :
        FunctionalCall.ofBag verb (.ofArguments call.arguments) = .ok taken) :
      Step call context taken.toAction context

/-- Completed calls describe actions one after the other. -/
inductive Runs : Context → List Call → Plan → Context → Prop where
  | nil (context : Context) : Runs context [] [] context
  | cons
      {context middle final : Context}
      {call : Call}
      {rest : List Call}
      {action : Action}
      {plan : Plan}
      (step : Step call context action middle)
      (others : Runs middle rest plan final) :
      Runs context (call :: rest) (action :: plan) final

section Verbs

variable {outcome : Outcome Context (List Action)}

theorem exists_of_argument
    {read : Except ArgumentError α}
    {next : α → Except HandlerError β}
    {result : β}
    (done : argument read >>= next = .ok result) :
    ∃ value, read = .ok value ∧ next value = .ok result := by
  cases read with
  | error error => cases done
  | ok value => exact ⟨value, rfl, done⟩

/-- A verb that went on did not refuse what it read. -/
private theorem accepted_of_unless
    {refused : Bool}
    {message : String}
    {next : PUnit → Except HandlerError β}
    {result : β}
    (done :
      (if refused = true then throw (.message message) >>= next
        else next ()) = .ok result) :
    refused = false ∧ next () = .ok result := by
  cases refused with
  | true => cases done
  | false => exact ⟨rfl, done⟩

/-- What is seen of a value is seen of the one under the key. -/
private theorem exists_of_requireAs
    {bag : Bag}
    {key : String}
    {expected : ValueKind}
    {view : Value → Option α}
    {seen : α}
    (read : bag.requireAs key expected view = .ok seen) :
    ∃ value, bag.get? key = some value ∧ view value = some seen := by
  rw [Bag.requireAs] at read
  cases found : bag.get? key with
  | none =>
      rw [found] at read
      cases read
  | some value =>
      rw [found] at read
      cases viewed : view value with
      | none =>
          simp only [viewed] at read
          cases read
      | some other =>
          simp only [viewed] at read
          cases read
          exact ⟨value, rfl, viewed⟩

private theorem get?_of_number
    {bag : Bag}
    {key : String}
    {number : Binary64}
    (read : bag.number key = .ok number) :
    bag.get? key = some (.number number) := by
  obtain ⟨value, found, viewed⟩ := exists_of_requireAs read
  cases value with
  | number other =>
      cases viewed
      exact found
  | _ => cases viewed

private theorem require_of_get?
    {bag : Bag}
    {key : String}
    {value : Value}
    (found : bag.get? key = some value) :
    bag.require key = .ok value := by
  rw [Bag.require, found]

theorem step_of_track
    {call : Call}
    {context : Context}
    (verb : call.name = "track")
    (done : track (.ofArguments call.arguments) context = .ok outcome) :
    ∃ action, outcome.output = [action] ∧
      Step call context action (outcome.context.getD context) := by
  obtain ⟨name, read, done⟩ := exists_of_argument done
  obtain ⟨color, _, done⟩ := exists_of_argument done
  obtain ⟨value, given, named⟩ := exists_of_requireAs read
  cases done
  exact ⟨_, rfl, .track verb given named (color.getD "")⟩

theorem step_of_addClip
    {call : Call}
    {context : Context}
    (verb : call.name = "add_clip")
    (done : addClip (.ofArguments call.arguments) context = .ok outcome) :
    ∃ action, outcome.output = [action] ∧
      Step call context action (outcome.context.getD context) := by
  obtain ⟨start, readStart, done⟩ := exists_of_argument done
  obtain ⟨length, readLength, done⟩ := exists_of_argument done
  obtain ⟨notBefore, done⟩ := accepted_of_unless done
  obtain ⟨positive, done⟩ := accepted_of_unless done
  have starts := get?_of_number readStart
  have lasts := get?_of_number readLength
  rw [require_of_get? starts, require_of_get? lasts] at done
  cases done
  exact ⟨_, rfl, .clip verb starts lasts notBefore positive⟩

/-- The verbs of the language and no others have a handler. -/
private theorem find?_registry_cases
    {name : String}
    {handler : PlanningHandler σ}
    (found : registry.find? name = some handler) :
    (name = "track" ∧ handler = Handler.computing track) ∨
      (name = "add_clip" ∧ handler = Handler.computing addClip) ∨
      (name = "mute" ∧ handler = Handler.computing mute) ∨
      ∃ verb : FunctionalVerb,
        name = verb.name ∧ handler = Registry.functionalVerb verb := by
  rw [registry, Registry.find?_withFunctional, Option.or_eq_some_iff] at found
  rcases found with functional | ⟨_, own⟩
  · obtain ⟨verb, among, rfl⟩ := Option.map_eq_some_iff.1 functional
    have named := List.find?_some among
    exact .inr (.inr (.inr ⟨verb, (of_decide_eq_true named).symm, rfl⟩))
  · have listed := Table.mem_of_lookup_eq_some own
    rcases Table.eq_or_mem_of_mem_insertInto listed with same | listed
    · cases same
      exact .inr (.inr (.inl ⟨rfl, rfl⟩))
    rcases Table.eq_or_mem_of_mem_insertInto listed with same | listed
    · cases same
      exact .inr (.inl ⟨rfl, rfl⟩)
    rcases Table.eq_or_mem_of_mem_insertInto listed with same | listed
    · cases same
      exact .inl ⟨rfl, rfl⟩
    · cases listed

/-- A call that completes is a step. -/
theorem step_of_ran
    {call : Call}
    {context : Context}
    {world next : World σ}
    {handler : PlanningHandler σ}
    (found : registry.find? call.name = some handler)
    (ran :
      handler (.ofArguments call.arguments) context world =
        (.ok outcome, next)) :
    ∃ action, outcome.output = [action] ∧
      Step call context action (outcome.context.getD context) := by
  have answered := congrArg Prod.fst ran
  rcases find?_registry_cases found with
    ⟨verb, rfl⟩ | ⟨verb, rfl⟩ | ⟨verb, rfl⟩ | ⟨verb, named, rfl⟩
  · exact step_of_track verb answered
  · exact step_of_addClip verb answered
  · cases answered
    exact ⟨_, rfl, .mute verb⟩
  · simp only [Registry.functionalVerb, Handler.computing] at answered
    cases read :
        FunctionalCall.ofBag verb (.ofArguments call.arguments) with
    | error error =>
        rw [read] at answered
        cases answered
    | ok taken =>
        rw [read] at answered
        cases answered
        exact ⟨_, rfl, .functional named read⟩

end Verbs

/-- Calls that all complete are a run, and each of them is one output. -/
theorem runs_of_completesAll
    {start final : Moment Context (List (List Action)) σ}
    {done : List Call}
    {deeds : List (Deed Context (List Action))}
    (all : CompletesAll registry Evaluation.keeping start done deeds final) :
    ∃ plan : Plan,
      final.received = start.received ++ plan.map ([·]) ∧
        Runs start.context done plan final.context := by
  induction all with
  | nil moment => exact ⟨[], (List.append_nil _).symm, .nil _⟩
  | cons first others inductionHypothesis =>
      cases first with
      | proceed live found ran delivered =>
          cases delivered
          obtain ⟨action, described, step⟩ := step_of_ran found ran
          obtain ⟨plan, received, runs⟩ := inductionHypothesis
          refine ⟨action :: plan, ?_, .cons step runs⟩
          rw [received, described, List.append_assoc]
          rfl

section Compiling

variable {engine : PlanningEngine σ ρ} {chain : Chain} {world : World σ}
  {plan : Plan}

/-- A chain that compiles is a run, evaluated to one output for each call. -/
theorem runs_of_compileChain
    (verbs : engine.registry = registry)
    (planning : engine.convention = .planning)
    (compiled : (engine.compileChain chain world).1 = .ok plan) :
    (engine.interpret chain world).1 = .ok (plan.map ([·])) ∧
      ∃ final, Runs .empty chain.calls plan final := by
  obtain ⟨calls⟩ := chain
  have evaluated :
      engine.interpret ⟨calls⟩ world =
        Evaluation.interpret .planning registry ⟨calls⟩ world := by
    rw [Engine.interpret, verbs, planning]
  rw [PlanningEngine.compileChain, evaluated] at compiled
  rw [evaluated]
  rcases Evaluation.completesAll_or_fails Convention.planning registry calls
      world with
    ⟨deeds, final, all⟩ | ⟨done, call, rest, deeds, moment, error, last,
      received, next, rfl, before, halts⟩
  · obtain ⟨described, received, runs⟩ := runs_of_completesAll all
    rw [Evaluation.interpret_of_completesAll all] at compiled ⊢
    have flat : final.received.flatten = described := by
      rw [received, List.nil_append, ← List.flatMap_def,
        List.flatMap_singleton']
    cases flat.symm.trans (Except.ok.inj compiled)
    exact ⟨congrArg Except.ok received, _, runs⟩
  · rw [Evaluation.interpret_of_halts before halts rest] at compiled
    cases compiled

end Compiling

/--
The name of the track that calls made last: of the last call of `track` among
them, the last argument that is named so, a string or an identifier.
-/
inductive CurrentTrack : List Call → Option String → Prop where
  | unmade
      {calls : List Call}
      (noTrack : ∀ call ∈ calls, call.name ≠ "track") :
      CurrentTrack calls none
  | made
      {front between : List Call}
      {call : Call}
      {value : Value}
      {name : String}
      (verb : call.name = "track")
      (given : Argument.LastNamed call.arguments "name" value)
      (named : value.text? = some name)
      (noOther : ∀ other ∈ between, other.name ≠ "track") :
      CurrentTrack (front ++ call :: between) (some name)

namespace CurrentTrack

variable {calls : List Call} {track? : Option String}

/-- There is no track exactly where none was made. -/
theorem eq_none_iff (current : CurrentTrack calls track?) :
    track? = none ↔ ∀ call ∈ calls, call.name ≠ "track" := by
  cases current with
  | unmade noTrack => exact ⟨fun _ => noTrack, fun _ => rfl⟩
  | made verb =>
      exact ⟨nofun, fun noTrack => absurd verb (noTrack _ (by simp))⟩

/-- Another verb leaves the track. -/
theorem concat
    {call : Call}
    (current : CurrentTrack calls track?)
    (other : call.name ≠ "track") :
    CurrentTrack (calls ++ [call]) track? := by
  have behind {others : List Call}
      (noTrack : ∀ before ∈ others, before.name ≠ "track") :
      ∀ before ∈ others ++ [call], before.name ≠ "track" := by
    intro before member
    rcases List.mem_append.1 member with among | last
    · exact noTrack before among
    · rw [List.mem_singleton.1 last]
      exact other
  cases current with
  | unmade noTrack => exact .unmade (behind noTrack)
  | made verb given named noOther =>
      rw [List.append_assoc, List.cons_append]
      exact .made verb given named (behind noOther)

end CurrentTrack

namespace Step

variable {call : Call} {context next : Context} {action : Action}
  {earlier : List Call}

theorem kind_tagged (action : Action) (context : Context) :
    (tagged action context).kind = action.kind := by
  rw [tagged]
  split <;> rfl

/-- A tagged action has the track of the context. -/
theorem get?_tagged
    (untagged : action.get? "track" = none)
    (context : Context) :
    (tagged action context).get? "track" =
      (context.text? "track").map .string := by
  rw [tagged]
  cases context.text? "track" with
  | none => exact untagged
  | some name => rw [Action.get?_put, if_pos rfl, Option.map_some]

/-- The verb of a step says what kind of action it describes. -/
theorem kind_eq (step : Step call context action next) :
    action.kind = kindOf call.name := by
  cases step with
  | track verb => rw [verb]; rfl
  | clip verb => rw [verb, kind_tagged]; rfl
  | mute verb => rw [verb, kind_tagged]; rfl
  | @functional functional call named read =>
      have taken := FunctionalCall.takes_of_ofBag read
      rw [FunctionalCall.kind_toAction, taken.verb_eq, named]
      cases functional <;> rfl

/-- A clip and a mute have the track of the context that they find. -/
theorem get?_track
    (step : Step call context action next)
    (onTrack : action.kind = "add_clip" ∨ action.kind = "mute_track") :
    action.get? "track" = (context.text? "track").map .string := by
  have kind := step.kind_eq
  cases step with
  | track verb => simp at onTrack
  | clip => exact get?_tagged (by simp [Action.get?_put]) context
  | mute => exact get?_tagged rfl context
  | @functional functional taken named read =>
      rw [kind, named] at onTrack
      cases functional <;> simp [kindOf, FunctionalVerb.name] at onTrack

/-- The context behind a step names the track that was made last. -/
theorem currentTrack
    (step : Step call context action next)
    (current : CurrentTrack earlier (context.text? "track")) :
    CurrentTrack (earlier ++ [call]) (next.text? "track") := by
  cases step with
  | track verb given named color =>
      have last :=
        (Bag.get?_ofArguments_eq_some_iff_lastNamed
          (ne_positionalKey (by decide))).1 given
      rw [Context.text?, Context.get?, Context.put, Table.find?_insert,
        if_pos rfl]
      exact .made verb last named (by simp)
  | clip verb => exact current.concat (by rw [verb]; decide)
  | mute verb => exact current.concat (by rw [verb]; decide)
  | @functional functional taken named read =>
      refine current.concat ?_
      rw [named]
      cases functional <;> decide

end Step

namespace Runs

variable {context final : Context} {calls earlier : List Call} {plan : Plan}

/-- A run describes an action of the right kind for each of its calls. -/
theorem kinds (runs : Runs context calls plan final) :
    plan.map Action.kind = calls.map fun call => kindOf call.name := by
  induction runs with
  | nil => rfl
  | cons step _ inductionHypothesis =>
      rw [List.map_cons, List.map_cons, step.kind_eq, inductionHypothesis]

/-- Each clip and mute of a run belongs to the track made last before it. -/
theorem belongs
    (runs : Runs context calls plan final)
    (current : CurrentTrack earlier (context.text? "track"))
    (index : Nat)
    (inside : index < plan.length)
    (onTrack :
      plan[index].kind = "add_clip" ∨ plan[index].kind = "mute_track") :
    ∃ track?,
      CurrentTrack (earlier ++ calls.take index) track? ∧
        plan[index].get? "track" = track?.map .string := by
  induction runs generalizing earlier index with
  | nil => cases inside
  | @cons _ _ _ call rest _ _ step _ inductionHypothesis =>
      cases index with
      | zero =>
          rw [List.take_zero, List.append_nil]
          exact ⟨_, current, step.get?_track onTrack⟩
      | succ index =>
          have found :=
            inductionHypothesis (step.currentTrack current) index
              (Nat.lt_of_succ_lt_succ inside) onTrack
          rw [List.append_assoc] at found
          exact found

end Runs

/--
A plan of the language of music has one action for each call, in order, of the
kind that the call's verb describes.  A clip and a mute have the name of the
track that the nearest `track` call in front of them made, and they have no
track exactly where there is no such call.
-/
theorem actions_belong_to_track
    {engine : PlanningEngine σ ρ}
    {chain : Chain}
    {world : World σ}
    {plan : Plan}
    (verbs : engine.registry = registry)
    (planning : engine.convention = .planning)
    (compiled : (engine.compileChain chain world).1 = .ok plan) :
    plan.length = chain.length ∧
      (engine.interpret chain world).1 = .ok (plan.map ([·])) ∧
      plan.map Action.kind =
        chain.calls.map (fun call => kindOf call.name) ∧
      ∀ index (inside : index < plan.length),
        plan[index].kind = "add_clip" ∨ plan[index].kind = "mute_track" →
          (∃ track?,
            CurrentTrack (chain.calls.take index) track? ∧
              plan[index].get? "track" = track?.map .string) ∧
            (plan[index].get? "track" = none ↔
              ∀ call ∈ chain.calls.take index, call.name ≠ "track") := by
  obtain ⟨evaluated, final, runs⟩ :=
    runs_of_compileChain verbs planning compiled
  have kinds := runs.kinds
  have length := congrArg List.length kinds
  rw [List.length_map, List.length_map] at length
  refine ⟨length, evaluated, kinds, fun index inside onTrack => ?_⟩
  have atStart : CurrentTrack [] (Context.empty.text? "track") :=
    .unmade (by simp)
  obtain ⟨track?, current, tagged⟩ :=
    runs.belongs atStart index inside onTrack
  rw [List.nil_append] at current
  refine ⟨⟨track?, current, tagged⟩, ?_⟩
  rw [tagged, Option.map_eq_none_iff]
  exact current.eq_none_iff

/--
A mute before any track, then two tracks with functional verbs around them: the
last name given to the second one is that of the clip behind it.
-/
theorem actions_belong_to_track_keys :
    let engine : PlanningEngine Unit Unit :=
      ⟨.planning, "", fun _ => .error (.ofBackend ""), registry,
        fun _ device => (.ok (), device), .standard⟩
    let calls : List Call :=
      [⟨"mute", []⟩, ⟨"track", [.named "name" (.string "Drums")]⟩,
        ⟨"map", [.positional (.function "f"), .positional (.bool true)]⟩,
        ⟨"track",
          [.named "name" (.string "Bass"),
            .named "name" (.identifier "Keys")]⟩,
        ⟨"compose", [.positional (.function "f")]⟩,
        ⟨"add_clip",
          [.named "start" (.number .zero),
            .named "length" (.number (.ofNat 8))]⟩]
    ∃ plan,
      (engine.compileChain ⟨calls⟩ ⟨.fresh, ()⟩).1 = .ok plan ∧
        plan.map Action.kind =
          ["mute_track", "create_track", "map", "create_track", "compose",
            "add_clip"] ∧
        plan[0]?.bind (·.get? "track") = none ∧
        plan[5]?.bind (·.text? "track") = some "Keys" ∧
        ∃ track?, CurrentTrack (calls.take 5) track? := by
  intro engine calls
  have compiled :
      (engine.compileChain ⟨calls⟩ ⟨.fresh, ()⟩).1 =
        .ok ((engine.compileChain ⟨calls⟩ ⟨.fresh, ()⟩).1.toOption.getD []) :=
    eq_ok_of_isOk (by decide +kernel) []
  obtain ⟨_, _, kinds, belongs⟩ :=
    @actions_belong_to_track _ _ engine _ _ _ rfl rfl compiled
  obtain ⟨⟨track?, current, _⟩, _⟩ :=
    belongs 5 (by decide +kernel) (.inl (by decide +kernel))
  exact
    ⟨_, compiled, kinds, by decide +kernel, by decide +kernel, track?, current⟩

end Music

end VerbChain
