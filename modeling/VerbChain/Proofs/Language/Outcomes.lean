import VerbChain.Language.Arithmetic
import VerbChain.Language.Music
import VerbChain.Proofs.Evaluation.Concatenation

namespace VerbChain

/-!
# What the verbs of the planning languages describe

A verb of a planning language either says why it fails or describes actions
whose data are plain: texts, truth values, numbers, null, or a list of texts.
Whole numbers among them are exact.  So every action of a plan that a program
of these languages is compiled to is plain.
-/

/-- A value without a depth of its own, or a list of texts. -/
def Json.IsPlain : Json → Prop
  | .integer value => value.natAbs ≤ greatestExact
  | .array items => ∃ texts : List String, items = texts.map Json.string
  | .object _ => False
  | _ => True

/-- An action whose data are plain. -/
def Action.IsPlain (action : Action) : Prop :=
  ∀ entry ∈ action.payload.entries, entry.2.IsPlain

theorem Json.isPlain_string (content : String) :
    (Json.string content).IsPlain :=
  trivial

theorem Json.isPlain_ofBinary (number : Binary64) :
    (Json.ofBinary number).IsPlain := by
  cases number <;> trivial

theorem Binary64.isPlain_toPayload (number : Binary64) :
    number.toPayload.IsPlain := by
  unfold toPayload
  split
  · split
    · next exact => exact exact.1
    · exact Json.isPlain_ofBinary number
  · exact Json.isPlain_ofBinary number

theorem Value.isPlain_toPayload (value : Value) : value.toPayload.IsPlain := by
  cases value with
  | number value => exact value.isPlain_toPayload
  | _ => trivial

namespace Action

theorem isPlain_bare (kind : String) : (bare kind).IsPlain := by
  intro entry member
  cases member

theorem IsPlain.put
    {action : Action}
    {value : Json}
    (plain : action.IsPlain)
    (key : String)
    (plainValue : value.IsPlain) :
    (action.put key value).IsPlain := by
  intro entry member
  rcases Table.eq_or_mem_of_mem_insertInto member with rfl | before
  · exact plainValue
  · exact plain entry before

end Action

namespace FunctionalCall

theorem isPlain_references (call : FunctionalCall) :
    call.references.IsPlain := by
  have bare := Action.isPlain_bare call.verb.name
  unfold references
  split
  · exact bare.put _ trivial
  · exact bare.put _ trivial
  · exact bare.put _ trivial
  · exact bare.put _ ⟨call.functions, rfl⟩
  · exact bare.put _ ⟨call.functions, rfl⟩

theorem isPlain_withValue
    {action : Action}
    (plain : action.IsPlain)
    (key : String)
    (value : Option Value) :
    (withValue action key value).IsPlain := by
  cases value with
  | none => exact plain
  | some value => exact plain.put key value.isPlain_toPayload

theorem isPlain_toAction (call : FunctionalCall) : call.toAction.IsPlain :=
  isPlain_withValue (isPlain_withValue call.isPlain_references _ _) _ _

end FunctionalCall

/-- What a verb may answer: plain actions, or why it fails. -/
def IsPlainAnswer :
    Except HandlerError (Outcome Context (List Action)) → Prop
  | .ok outcome => ∀ action ∈ outcome.output, action.IsPlain
  | .error error => error ≠ .crash

theorem IsPlainAnswer.ofAction
    {action : Action}
    (plain : action.IsPlain)
    (context : Option Context) :
    IsPlainAnswer (.ok ⟨[action], context⟩) := by
  intro other member
  rw [List.mem_singleton.1 member]
  exact plain

namespace Music

/-- What is read from a bag comes before the rest of a verb. -/
theorem isPlainAnswer_bind
    (read : Except ArgumentError α)
    {next : α → Except HandlerError (Outcome Context (List Action))}
    (plain : ∀ value, IsPlainAnswer (next value)) :
    IsPlainAnswer (argument read >>= next) := by
  cases read with
  | error error =>
      intro broken
      cases broken
  | ok value => exact plain value

/-- A verb that refuses what it read says why. -/
theorem isPlainAnswer_unless
    {refused : Bool}
    {message : String}
    {next : PUnit → Except HandlerError (Outcome Context (List Action))}
    (plain : IsPlainAnswer (next ())) :
    IsPlainAnswer
      (if refused = true then throw (.message message) >>= next
        else next ()) := by
  split
  · intro broken
    cases broken
  · exact plain

theorem isPlain_tagged
    {action : Action}
    (plain : action.IsPlain)
    (context : Context) :
    (tagged action context).IsPlain := by
  unfold tagged
  split
  · exact plain.put _ trivial
  · exact plain

theorem isPlainAnswer_track
    (bag : Bag)
    (context : Context) :
    IsPlainAnswer (track bag context) := by
  refine isPlainAnswer_bind _ fun name => ?_
  refine isPlainAnswer_bind _ fun color => ?_
  have named :=
    (Action.isPlain_bare "create_track").put "name" (Json.isPlain_string name)
  exact .ofAction (named.put "color" (Json.isPlain_string _)) _

theorem isPlainAnswer_addClip
    (bag : Bag)
    (context : Context) :
    IsPlainAnswer (addClip bag context) := by
  refine isPlainAnswer_bind _ fun start => ?_
  refine isPlainAnswer_bind _ fun length => ?_
  refine isPlainAnswer_unless ?_
  refine isPlainAnswer_unless ?_
  refine isPlainAnswer_bind _ fun startValue => ?_
  refine isPlainAnswer_bind _ fun lengthValue => ?_
  have placed :=
    (Action.isPlain_bare "add_clip").put "start" startValue.isPlain_toPayload
  exact
    .ofAction
      (isPlain_tagged (placed.put "length" lengthValue.isPlain_toPayload)
        context)
      none

theorem isPlainAnswer_mute
    (bag : Bag)
    (context : Context) :
    IsPlainAnswer (mute bag context) :=
  .ofAction (isPlain_tagged (Action.isPlain_bare _) context) none

end Music

/-- Handlers that only compute, and whose answers are plain. -/
def Registry.Describes (registry : Registry σ Context (List Action)) : Prop :=
  ∀ verb handler, registry.find? verb = some handler →
    ∃ compute,
      handler = Handler.computing compute ∧
        ∀ bag context, IsPlainAnswer (compute bag context)

namespace Registry.Describes

variable {registry : Registry σ Context (List Action)}

theorem computes (describes : registry.Describes) : registry.Computes := by
  intro verb handler found
  obtain ⟨compute, same, _⟩ := describes verb handler found
  exact ⟨compute, same⟩

theorem answers (describes : registry.Describes) : registry.Answers := by
  intro verb handler found bag context world broken
  obtain ⟨compute, rfl, plain⟩ := describes verb handler found
  have answered := plain bag context
  rw [show compute bag context = .error .crash from broken] at answered
  exact answered rfl

theorem empty : Registry.Describes (σ := σ) Table.empty := by
  intro verb handler found
  cases found

/-- One more handler whose answers are plain. -/
theorem insert
    (describes : registry.Describes)
    (verb : String)
    {compute :
      Bag → Context → Except HandlerError (Outcome Context (List Action))}
    (plain : ∀ bag context, IsPlainAnswer (compute bag context)) :
    Registry.Describes (Table.insert registry verb (.computing compute)) := by
  intro other handler found
  rw [Table.find?_insert] at found
  split at found
  · cases found
    exact ⟨compute, rfl, plain⟩
  · exact describes other handler found

private theorem insert_functional
    (describes : registry.Describes)
    (verb : FunctionalVerb) :
    Registry.Describes
      (Table.insert registry verb.name (functionalVerb verb)) := by
  refine describes.insert verb.name fun bag _ => ?_
  cases FunctionalCall.ofBag verb bag with
  | error error =>
      intro broken
      cases broken
  | ok call => exact .ofAction call.isPlain_toAction none

/-- The functional verbs describe plain actions wherever they are. -/
theorem withFunctional (describes : registry.Describes) :
    Registry.Describes (registry.withFunctional functionalVerb) :=
  ((((describes.insert_functional .map).insert_functional
    .filter).insert_functional .reduce).insert_functional
    .compose).insert_functional .pipe

end Registry.Describes

theorem Music.registry_describes :
    (Music.registry : Registry σ Context (List Action)).Describes :=
  (((Registry.Describes.empty.insert "track" isPlainAnswer_track).insert
    "add_clip" isPlainAnswer_addClip).insert
    "mute" isPlainAnswer_mute).withFunctional

namespace Arithmetic

private theorem insert_verb
    {registry : Registry σ Context (List Action)}
    (describes : registry.Describes)
    (kind : String)
    {result : Binary64 → Json}
    (plain : ∀ x, (result x).IsPlain) :
    Registry.Describes (Table.insert registry kind (verb kind result)) := by
  refine describes.insert kind fun bag _ => ?_
  cases bag.number "x" with
  | error error =>
      intro broken
      cases broken
  | ok x => exact .ofAction ((Action.isPlain_bare kind).put _ (plain x)) none

theorem registry_describes :
    (Arithmetic.registry : Registry σ Context (List Action)).Describes := by
  have squared :=
    insert_verb (σ := σ) .empty "square" fun x =>
      Json.isPlain_ofBinary (x.times x)
  have doubled :=
    insert_verb squared "double" fun x => Json.isPlain_ofBinary (x.times two)
  have tested :=
    insert_verb doubled "is_even" fun x =>
      show (Json.bool x.isEven).IsPlain from trivial
  exact tested.withFunctional

end Arithmetic

/-- The planning languages of the command line. -/
def planningRegistries : List (Registry Unit Context (List Action)) :=
  [Music.registry, Arithmetic.registry]

theorem Registry.describes_of_mem
    {registry : Registry Unit Context (List Action)}
    (shipped : registry ∈ planningRegistries) :
    registry.Describes := by
  rcases List.mem_cons.1 shipped with rfl | shipped
  · exact Music.registry_describes
  · rw [List.mem_singleton.1 shipped]
    exact Arithmetic.registry_describes

section Plain

variable {registry : Registry σ Context (List Action)}

/-- Calls that complete leave plain actions behind plain ones. -/
theorem CompletesAll.isPlain_received
    {start final : Moment Context (List (List Action)) σ}
    {done : List Call}
    {deeds : List (Deed Context (List Action))}
    (describes : registry.Describes)
    (all : CompletesAll registry Evaluation.keeping start done deeds final)
    (plain : ∀ action ∈ start.received.flatten, action.IsPlain) :
    ∀ action ∈ final.received.flatten, action.IsPlain := by
  induction all with
  | nil moment => exact plain
  | @cons start middle final call rest deeds later first others
      inductionHypothesis =>
      apply inductionHypothesis
      cases first with
      | @proceed context received taken world acted last handler outcome live
          found ran delivered =>
          cases delivered
          obtain ⟨compute, rfl, plainAnswer⟩ := describes _ _ found
          have answered := plainAnswer (.ofArguments call.arguments) context
          rw [show compute _ context = .ok outcome from congrArg Prod.fst ran]
            at answered
          intro action member
          rw [List.flatten_append, List.mem_append, List.flatten_singleton]
            at member
          exact member.elim (plain action) (answered action)

end Plain

/-- Programs of such handlers are compiled to plain actions. -/
theorem PlanningEngine.isPlain_of_compileChain
    {engine : PlanningEngine σ ρ}
    {chain : Chain}
    {world : World σ}
    {plan : Plan}
    (describes : engine.registry.Describes)
    (compiled : (engine.compileChain chain world).1 = .ok plan) :
    ∀ action ∈ plan, action.IsPlain := by
  obtain ⟨outputs, next, evaluated, rfl⟩ := compileChain_eq_ok_iff.1 compiled
  obtain ⟨calls⟩ := chain
  rcases Evaluation.completesAll_or_fails engine.convention engine.registry
      calls world with
    ⟨deeds, final, all⟩ | ⟨done, call, rest, deeds, moment, error, last,
      received, after, rfl, before, halts⟩
  · rw [Evaluation.interpret_of_completesAll all] at evaluated
    cases evaluated
    refine all.isPlain_received describes ?_
    intro action member
    cases member
  · rw [Evaluation.interpret_of_halts before halts rest] at evaluated
    cases evaluated

end VerbChain
