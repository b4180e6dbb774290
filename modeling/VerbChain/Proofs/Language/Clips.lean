import VerbChain.Proofs.Chain.Stability
import VerbChain.Proofs.Language.Tracks
import VerbChain.Proofs.Number.Payload

namespace VerbChain.Music

/-!
# Which clips a plan describes

A clip is described by a call that was given a start and a length, and the verb
refuses a start below zero and a length that is not above zero.  The two numbers
are read from numerals of any length, and each stands in the data of the clip as
it is written, if its numeral fits.  A numeral that is too great is read as an
infinity, which is no JSON number: then the clip has nothing in its place.
-/

/-- The number that a call was last given under a key, read from a numeral. -/
structure IsWritten (source : String) (call : Call) (key : String)
    (number : Binary64) (decimal : Decimal) : Prop where
  given : Argument.LastNamed call.arguments key (.number number)
  spelled :
    ∃ place spelling negative,
      CutsOff source.toList place spelling ∧
        IsNumeral spelling negative decimal ∧
        number = .ofDecimal negative decimal

/-- A number stands in an action if its numeral fits, and else there is null. -/
structure Stands (action : Action) (key : String) (number : Binary64)
    (decimal : Decimal) : Prop where
  fits : decimal.Fits → action.number? key = some number
  overflows : ¬decimal.Fits → action.get? key = some .null

section Call

variable {source : String} {chain : Chain} {call : Call} {key : String}
  {number : Binary64}

/-- A number of a call of a program that was read is written in it. -/
theorem exists_isWritten
    (read : Chain.ofSource source = .ok chain)
    (among : call ∈ chain.calls)
    (word : key.toList.head? ≠ some '_')
    (found : (Bag.ofArguments call.arguments).get? key = some (.number number)) :
    ∃ decimal, IsWritten source call key number decimal := by
  have last :=
    (Bag.get?_ofArguments_eq_some_iff_lastNamed (ne_positionalKey word)).1
      found
  obtain ⟨earlier, later, shape, _⟩ := id last
  have inCall : number ∈ call.numbers := by
    rw [Call.numbers, shape]
    simp [Argument.named, Value.numbers]
  have inChain : number ∈ chain.numbers :=
    List.mem_flatMap.2 ⟨call, among, inCall⟩
  obtain ⟨place, spelling, negative, decimal, cut, numeral, same⟩ :=
    (Chain.mem_numbers_iff read).1 inChain
  exact ⟨decimal, last, place, spelling, negative, cut, numeral, same⟩

theorem IsWritten.ne_nan
    {decimal : Decimal}
    (written : IsWritten source call key number decimal) :
    number ≠ .nan := by
  obtain ⟨_, _, negative, _, _, rfl⟩ := written.spelled
  exact Binary64.ofDecimal_ne_nan negative decimal

/-- What has the payload of a number has the number if its numeral fits. -/
theorem IsWritten.stands
    {decimal : Decimal}
    {action : Action}
    (written : IsWritten source call key number decimal)
    (put : action.get? key = some number.toPayload) :
    Stands action key number decimal := by
  obtain ⟨_, _, negative, _, _, same⟩ := written.spelled
  have finite : number.isFinite = true ↔ decimal.Fits := by
    rw [same]
    exact Binary64.isFinite_ofDecimal_iff negative decimal
  constructor
  · intro fits
    rw [Action.number?, put, Option.bind_some,
      Binary64.number?_toPayload (finite.2 fits)]
  · intro overflows
    rw [put, Binary64.toPayload_of_not_finite]
    exact Bool.eq_false_iff.2 (mt finite.1 overflows)

end Call

section Steps

variable {call : Call} {context next final : Context} {action : Action}
  {calls : List Call} {plan : Plan}

/-- A tag leaves what an action has under another key. -/
private theorem get?_tagged_of_ne
    {key : String}
    (other : key ≠ "track")
    (action : Action)
    (context : Context) :
    (tagged action context).get? key = action.get? key := by
  rw [tagged]
  split
  · rw [Action.get?_put, if_neg other]
  · rfl

/-- Every action of a run is described by the call at its place. -/
theorem Runs.exists_step
    (runs : Runs context calls plan final)
    (index : Nat)
    (inside : index < plan.length) :
    ∃ call before after,
      calls[index]? = some call ∧ Step call before plan[index] after := by
  induction runs generalizing index with
  | nil => cases inside
  | cons step _ inductionHypothesis =>
      cases index with
      | zero => exact ⟨_, _, _, rfl, step⟩
      | succ index =>
          exact inductionHypothesis index (Nat.lt_of_succ_lt_succ inside)

/-- Only `add_clip` describes a clip, of the numbers that it did not refuse. -/
theorem Step.exists_clip
    (step : Step call context action next)
    (isClip : action.kind = "add_clip") :
    ∃ start length,
      (Bag.ofArguments call.arguments).get? "start" = some (.number start) ∧
        (Bag.ofArguments call.arguments).get? "length" =
          some (.number length) ∧
        start.less .zero = false ∧ length.atMost .zero = false ∧
        action.get? "start" = some start.toPayload ∧
        action.get? "length" = some length.toPayload := by
  have kind := step.kind_eq
  rw [isClip] at kind
  cases step with
  | @clip start length verb starts lasts notBefore positive =>
      refine ⟨start, length, starts, lasts, notBefore, positive, ?_, ?_⟩
      · rw [get?_tagged_of_ne (by decide), Action.get?_put,
          if_neg (by decide), Action.get?_put, if_pos rfl]
      · rw [get?_tagged_of_ne (by decide), Action.get?_put, if_pos rfl]
  | track verb =>
      rw [verb] at kind
      exact absurd kind (by decide)
  | mute verb =>
      rw [verb] at kind
      exact absurd kind (by decide)
  | @functional functional _ named =>
      rw [named] at kind
      cases functional <;> exact absurd kind (by decide)

end Steps

/--
What a clip of a plan is: its call was given a start that is not below zero and
a length above zero, both read from numerals of the program, and each of them
stands in the clip if its numeral fits.
-/
structure IsClip (source : String) (call : Call) (action : Action)
    (start length : Binary64) (startDecimal lengthDecimal : Decimal) :
    Prop where
  starts : IsWritten source call "start" start startDecimal
  lasts : IsWritten source call "length" length lengthDecimal
  notBefore : Binary64.zero.atMost start = true
  positive : Binary64.zero.less length = true
  start_stands : Stands action "start" start startDecimal
  length_stands : Stands action "length" length lengthDecimal

/--
Every clip in a plan that a program of the language of music is compiled to
starts at zero or later and has a positive length, and its data are the numbers
that its call was given, as long as their numerals fit; a number whose numeral
does not fit is missing from the data.
-/
theorem clips_stand_if_fit
    {engine : PlanningEngine σ ρ}
    {source : String}
    {state : σ}
    {plan : Plan}
    (verbs : engine.registry = registry)
    (planning : engine.convention = .planning)
    (reads : engine.parser = Chain.ofSource)
    (compiled : (engine.compile source state).1 = .ok plan) :
    ∃ chain,
      Chain.ofSource source = .ok chain ∧
        ∀ index (inside : index < plan.length),
          plan[index].kind = "add_clip" →
            ∃ call, chain.calls[index]? = some call ∧
              ∃ start length startDecimal lengthDecimal,
                IsClip source call plan[index] start length startDecimal
                  lengthDecimal := by
  cases read : Chain.ofSource source with
  | error error =>
      rw [PlanningEngine.compile, Engine.parse, reads, read] at compiled
      cases compiled
  | ok chain =>
      rw [PlanningEngine.compile, Engine.parse, reads, read] at compiled
      obtain ⟨_, final, runs⟩ := runs_of_compileChain verbs planning compiled
      refine ⟨chain, rfl, fun index inside isClip => ?_⟩
      obtain ⟨call, _, _, found, step⟩ := runs.exists_step index inside
      have among := List.mem_of_getElem? found
      obtain ⟨start, length, starts, lasts, notBefore, positive, putStart,
        putLength⟩ := step.exists_clip isClip
      obtain ⟨startDecimal, startWritten⟩ :=
        exists_isWritten read among (by decide) starts
      obtain ⟨lengthDecimal, lengthWritten⟩ :=
        exists_isWritten read among (by decide) lasts
      have zero : Binary64.zero ≠ .nan := by decide +kernel
      exact ⟨call, found, start, length, startDecimal, lengthDecimal,
        startWritten, lengthWritten,
        Binary64.atMost_of_not_less startWritten.ne_nan zero notBefore,
        Binary64.less_of_not_atMost lengthWritten.ne_nan zero positive,
        startWritten.stands putStart, lengthWritten.stands putLength⟩

/-- A clip of half a bar at the start of a song. -/
theorem clips_stand_if_fit_half :
    let engine : PlanningEngine Unit Unit :=
      ⟨.planning, "", Chain.ofSource, registry,
        fun _ device => (.ok (), device), .standard⟩
    let source := "add_clip(start=0, length=0.5)"
    ∃ action,
      (engine.compile source ()).1 = .ok [action] ∧
        action.kind = "add_clip" ∧
        action.number? "length" = some (.ofDecimal false ⟨5, -1⟩) ∧
        ∃ chain call start length startDecimal lengthDecimal,
          Chain.ofSource source = .ok chain ∧ call ∈ chain.calls ∧
            IsClip source call action start length startDecimal
              lengthDecimal := by
  intro engine source
  obtain ⟨plan, compiled, kinds, lengths⟩ :
      ∃ plan,
        (engine.compile source ()).1 = .ok plan ∧
          plan.map Action.kind = ["add_clip"] ∧
          plan.map (·.number? "length") =
            [some (.ofDecimal false ⟨5, -1⟩)] := by
    refine ⟨_, eq_ok_of_isOk ?isOk [], ?kinds, ?lengths⟩
    all_goals decide +kernel
  obtain ⟨action, rfl, isClip⟩ := List.map_eq_singleton_iff.1 kinds
  obtain ⟨chain, read, clips⟩ :=
    @clips_stand_if_fit _ _ engine _ _ _ rfl rfl rfl compiled
  obtain ⟨call, found, start, length, startDecimal, lengthDecimal, described⟩ :=
    clips 0 Nat.zero_lt_one isClip
  exact
    ⟨action, compiled, isClip, List.singleton_inj.1 lengths, chain, call, start,
      length, startDecimal, lengthDecimal, read, List.mem_of_getElem? found,
      described⟩

/-- A chain of one call for a clip at the start of a song. -/
def clip (length : Binary64) : Chain :=
  ⟨[⟨"add_clip",
    [.named "start" (.number .zero), .named "length" (.number length)]⟩]⟩

/-- A call for a clip that has digits only for its length is read as such. -/
theorem ofSource_clip
    {digits : List Char}
    (some : digits ≠ [])
    (allDigits : ∀ c ∈ digits, isDigit c = true) :
    Chain.ofSource
        (String.ofList
          ("add_clip(start=0, length=".toList ++ (digits ++ [')']))) =
      .ok (clip (.ofDecimal false (.ofParts digits []))) := by
  let lasting := "length".toList ++ '=' :: (digits ++ [')'])
  have zero :=
    @IsNumeral.parts false ['0'] [] (by decide)
      (List.forall_mem_singleton.2 rfl) (by simp)
  have numeral := @IsNumeral.parts false digits [] some allDigits (by simp)
  have start :=
    @Tokens.kinds?_isLexeme _ (',' :: ' ' :: lasting) _ (.number zero)
      (.inr ⟨rfl, rfl⟩)
  have length :=
    @Tokens.kinds?_isLexeme _ [')'] _ (.number numeral) (.inr ⟨rfl, rfl⟩)
  simp only [Bool.false_eq_true, if_false, if_true, List.nil_append,
    List.append_nil] at start length
  rw [Chain.ofSource_eq_ok_iff, String.toList_ofList]
  change
    Tokens.kinds?
      ("add_clip".toList ++ '(' ::
        ("start".toList ++ '=' :: (['0'] ++ ',' :: ' ' :: lasting))) = _
  rw [Tokens.kinds?_name (by decide) rfl, Tokens.kinds?_punctuation rfl,
    Tokens.kinds?_name (by decide) rfl, Tokens.kinds?_punctuation rfl, start,
    Tokens.kinds?_punctuation rfl, Tokens.kinds?_blank rfl,
    Tokens.kinds?_name (by decide) rfl, Tokens.kinds?_punctuation rfl, length,
    Tokens.kinds?_punctuation rfl, Tokens.kinds?_nil]
  rfl

/-- A clip whose length is written in 309 nines has no length in its plan. -/
theorem compile_clip_nines :
    let engine : PlanningEngine Unit Unit :=
      ⟨.planning, "", Chain.ofSource, registry,
        fun _ device => (.ok (), device), .standard⟩
    let source :=
      String.ofList
        ("add_clip(start=0, length=".toList ++
          (List.replicate 309 '9' ++ [')']))
    ∃ action,
      (engine.compile source ()).1 = .ok [action] ∧
        action.kind = "add_clip" ∧
        action.get? "length" = some .null ∧
        action.number? "length" = none := by
  intro engine source
  have value :
      Binary64.ofDecimal false (.ofParts (List.replicate 309 '9') []) =
        .infinite false := by
    decide +kernel
  have read :
      engine.parser source =
        .ok (clip (.ofDecimal false (.ofParts (List.replicate 309 '9') []))) :=
    ofSource_clip (List.cons_ne_nil _ _) fun c member => by
      rw [(List.mem_replicate.1 member).2]
      rfl
  have parsed : engine.parse source = .ok (clip (.infinite false)) := by
    rw [Engine.parse, read, value]
  obtain ⟨plan, compiled, kinds⟩ :
      ∃ plan,
        (engine.compileChain (clip (.infinite false)) ⟨.fresh, ()⟩).1 =
            .ok plan ∧
          plan.map Action.kind = ["add_clip"] := by
    refine ⟨_, eq_ok_of_isOk ?isOk [], ?kinds⟩
    all_goals decide +kernel
  obtain ⟨action, rfl, isClip⟩ := List.map_eq_singleton_iff.1 kinds
  have put : action.get? "length" = some .null := by
    obtain ⟨_, _, runs⟩ :=
      @runs_of_compileChain _ _ engine _ _ _ rfl rfl compiled
    obtain ⟨call, _, _, found, step⟩ := runs.exists_step 0 Nat.zero_lt_one
    obtain ⟨_, length, _, lasts, _, _, _, put⟩ := step.exists_clip isClip
    cases found
    cases lasts
    exact put
  refine ⟨action, ?_, isClip, put, ?_⟩
  · rw [PlanningEngine.compile, parsed]
    exact compiled
  · rw [Action.number?, put]
    rfl

end VerbChain.Music
