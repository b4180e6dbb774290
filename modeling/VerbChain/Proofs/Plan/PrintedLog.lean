import Mathlib.Data.List.Forall2
import VerbChain.Proofs.Command.Agreement
import VerbChain.Proofs.Json.Losses
import VerbChain.Proofs.Json.OneLine
import VerbChain.Proofs.Json.ShortNumbers
import VerbChain.Proofs.Plan.Persistence

namespace VerbChain

/-!
# The log that printing leaves

Printing a plan leaves a line for every action that was carried out, no matter
when others cancel its token.  A line of JSON has no line end in it.  It is read
back as its action if it is not too deep and all its numbers read back, and
otherwise it is not read as an equal action.
-/

theorem Report.lines_singleton (text : String) : lines [text] = text ++ "\n" := by
  rw [lines_cons]
  exact String.append_empty

namespace Executor

/--
An executor amid others, who may touch the token behind every action.  What is
printed grows with every action, so the token may be any one in front of each.
-/
def amid (executor : Executor ρ) (others : World ρ → CancelToken) :
    Executor ρ :=
  fun action world =>
    match executor action world with
    | (answer, next) => (answer, { next with token := others next })

variable {format : PrintFormat} {others : World String → CancelToken}
  {device : World String} {plan : Plan}

/-- Amid others an action is printed as it is alone. -/
theorem printing_amid
    (format : PrintFormat)
    (others : World String → CancelToken)
    (action : Action)
    (device : World String) :
    ∃ token,
      (printing format append).amid others action device =
        (.ok (), ⟨token, device.state ++ (action.line format ++ "\n")⟩) := by
  rw [amid, printing_append]
  exact ⟨_, rfl⟩

/-- Actions that were carried out are printed behind what was printed before. -/
theorem state_of_carriesOut
    {final : World String}
    (carried :
      CarriesOut ((printing format append).amid others) device plan final) :
    final.state =
      device.state ++ Report.lines (plan.map (Action.line format)) := by
  induction carried with
  | nil device => exact String.append_empty.symm
  | @cons device middle final action rest live ran _ inductionHypothesis =>
      obtain ⟨token, printed⟩ := printing_amid format others action device
      rw [ran] at printed
      cases printed
      rw [inductionHypothesis, List.map_cons, Report.lines_cons,
        String.append_assoc]

end Executor

/--
A plan that is printed amid others is printed up to an action in front of
which the token is cancelled, or to its end.
-/
theorem Plan.execute_printing
    (format : PrintFormat)
    (others : World String → CancelToken)
    (plan : Plan)
    (device : World String) :
    ∃ completed token,
      completed ≤ plan.length ∧
        plan.execute ((Executor.printing format Executor.append).amid others)
            device =
          (if completed = plan.length then .ok completed
            else .error (.cancelled completed),
            ⟨token,
              device.state ++
                Report.lines
                  ((plan.take completed).map (Action.line format))⟩) := by
  obtain ⟨answer, handed, final, account⟩ :=
    Plan.exists_account
      ((Executor.printing format Executor.append).amid others) plan device
  rw [execute_of_account account]
  cases account with
  | finished all =>
      refine ⟨plan.length, final.token, Nat.le_refl _, ?_⟩
      rw [if_pos rfl, List.take_length, ← Executor.state_of_carriesOut all]
  | @balked done rest action middle _ error last shape before balks =>
      cases balks with
      | failed live ran =>
          obtain ⟨token, printed⟩ :=
            Executor.printing_amid format others action middle
          rw [ran] at printed
          cases printed
      | cancelled cancelled =>
          have shorter : done.length < plan.length := by
            simp [shape]
          have front : plan.take done.length = done := by
            rw [shape, List.take_left]
          refine ⟨done.length, final.token, Nat.le_of_lt shorter, ?_⟩
          rw [if_neg (Nat.ne_of_lt shorter), front,
            ← Executor.state_of_carriesOut before]

namespace Action

/-- What is read as an equal action was not too deep and lost no number. -/
theorem readable_of_ofStored?
    {action read : Action}
    {room : Nat}
    (standard : ∀ part ∈ action.toStored.parts, part.IsStandard)
    (found : ofStored? room action.toStored.document = some read)
    (agree : read.agrees action = true) :
    action.toStored.depth ≤ room ∧
      ∀ part ∈ action.toStored.parts, part.Rereads := by
  by_cases closed : room = 0
  · rw [ofStored?, record?_document, if_pos closed] at found
    cases found
  · rw [ofStored?_of_room action closed] at found
    obtain ⟨payload, within, rfl⟩ := Option.map_eq_some_iff.1 found
    -- The payload is read one level below its record, its fields below that.
    obtain ⟨room, rfl⟩ : ∃ below, room = below + 2 := by
      rcases room with _ | _ | below
      · exact absurd rfl closed
      · cases within
      · exact ⟨below, rfl⟩
    obtain ⟨pairs, fields, rfl⟩ := Option.map_eq_some_iff.1 within
    have kept :=
      JsonDocument.entries_of_toFields? action.payload.ordered fields
    have same := (Bool.and_eq_true_iff.1 agree).2
    rw [kept] at same
    obtain ⟨shallow, rereads⟩ :=
      JsonDocument.readable_of_toFields?
        (fun part member => standard part (mem_parts_toStored member))
        fields same
    rw [depth_toStored]
    refine ⟨Nat.add_le_add_right shallow 2, ?_⟩
    simpa [toStored, Json.parts, Json.fieldsParts, Json.Rereads] using rereads

theorem agrees_self (action : Action) : action.agrees action = true :=
  Bool.and_eq_true_iff.2
    ⟨beq_self_eq_true action.kind,
      Json.agreeFields_self action.payload.entries⟩

/-- The line of an action is read as it is from its document. -/
theorem ofText?_toText (action : Action) :
    ofText? action.toText =
      ofStored? JsonDocument.levels action.toStored.document := by
  rw [ofText?, toText, Json.compact, JsonDocument.decode?,
    String.toList_ofList, JsonDocument.ofText?_write JsonSpacing.blank_compact,
    Option.bind_some]

/--
A line that stands for an action: no line ends in it, and it is read as an equal
action exactly if the action is not too deep and all its numbers read back; what
is read then is the action itself.  Numbers that are written short do read back.
-/
structure IsLogged (action : Action) (line : String) : Prop where
  oneLine : '\n' ∉ line.toList
  reads_iff :
    (∃ read, ofText? line = some read ∧ read.agrees action = true) ↔
      action.toStored.depth ≤ JsonDocument.levels ∧
        ∀ part ∈ action.toStored.parts, part.Rereads
  only :
    ∀ read, ofText? line = some read → read.agrees action = true →
      read = action
  short :
    action.toStored.depth ≤ JsonDocument.levels →
      (∀ part ∈ action.toStored.parts, part.IsShort) →
        ofText? line = some action

/-- The line of JSON that an action is printed as stands for it. -/
theorem isLogged_toText
    {action : Action}
    (standard : ∀ part ∈ action.toStored.parts, part.IsStandard) :
    action.IsLogged action.toText := by
  have readable {read : Action}
      (found : ofText? action.toText = some read)
      (agree : read.agrees action = true) :
      action.toStored.depth ≤ JsonDocument.levels ∧
        ∀ part ∈ action.toStored.parts, part.Rereads := by
    rw [ofText?_toText] at found
    exact readable_of_ofStored? standard found agree
  have reads
      (shallow : action.toStored.depth ≤ JsonDocument.levels)
      (rereads : ∀ part ∈ action.toStored.parts, part.Rereads) :
      ofText? action.toText = some action := by
    rw [ofText?_toText,
      ofStored?_document fun part member =>
        ⟨standard part member, rereads part member⟩,
      if_pos shallow]
  constructor
  · exact Json.newline_not_mem_compact action.toStored
  · constructor
    · rintro ⟨read, found, agree⟩
      exact readable found agree
    · rintro ⟨shallow, rereads⟩
      exact ⟨action, reads shallow rereads, agrees_self action⟩
  · intro read found agree
    obtain ⟨shallow, rereads⟩ := readable found agree
    exact Option.some.inj (found.symm.trans (reads shallow rereads))
  · intro shallow short
    exact reads shallow fun part member => (short part member).rereads

end Action

namespace Plan

/--
Whenever others cancel it, printing a plan in JSON adds one line for each action
up to where it stopped, and each line stands for its action.
-/
theorem printed_lines_stand
    (others : World String → CancelToken)
    {plan : Plan}
    (device : World String)
    (standard :
      ∀ action ∈ plan, ∀ part ∈ action.toStored.parts, part.IsStandard) :
    ∃ completed token lines,
      completed ≤ plan.length ∧
        plan.execute ((Executor.printing .json Executor.append).amid others)
            device =
          (if completed = plan.length then .ok completed
            else .error (.cancelled completed),
            ⟨token, device.state ++ Report.lines lines⟩) ∧
        List.Forall₂ Action.IsLogged (plan.take completed) lines := by
  obtain ⟨completed, token, inside, executed⟩ :=
    execute_printing .json others plan device
  refine ⟨completed, token, _, inside, executed, ?_⟩
  rw [List.forall₂_map_right_iff, List.forall₂_same]
  intro action member
  exact Action.isLogged_toText (standard action (List.mem_of_mem_take member))

/-- The scene is cancelled behind its first action, whose line is read back. -/
theorem printed_lines_stand_scene :
    let executor :=
      (Executor.printing .json Executor.append).amid fun _ => .expired
    ∃ action line read,
      scene.head? = some action ∧
        scene.execute executor ⟨.fresh, "# scene\n"⟩ =
          (.error (.cancelled 1), ⟨.expired, "# scene\n" ++ line ++ "\n"⟩) ∧
        '\n' ∉ line.toList ∧
        Action.ofText? line = some read ∧ read.agrees action = true := by
  intro executor
  obtain ⟨completed, token, lines, _, executed, stand⟩ :=
    @printed_lines_stand (fun _ => .expired) scene ⟨.fresh, "# scene\n"⟩
      (by decide +kernel)
  have ended :
      ((scene.execute executor ⟨.fresh, "# scene\n"⟩).1,
          (scene.execute executor ⟨.fresh, "# scene\n"⟩).2.token) =
        (.error (.cancelled 1), .expired) :=
    rfl
  rw [executed] at ended
  obtain ⟨answer, rfl⟩ := Prod.mk.inj ended
  have one : completed = 1 := by
    split at answer <;> cases answer
    rfl
  subst one
  cases stand with
  | @cons _ line _ _ stands none =>
      cases none
      obtain ⟨read, found, agree⟩ :=
        stands.reads_iff.2 ⟨by decide +kernel, by decide +kernel⟩
      refine
        ⟨_, line, read, rfl, executed.trans ?_, stands.oneLine, found,
          agree⟩
      rw [Report.lines_singleton, ← String.append_assoc]
      rfl

/-- A clip whose length is read back as its neighbour. -/
def crowded : Action :=
  ⟨"add_clip",
    .ofList
      [("length", .float false ⟨0x3fee1016533688a2, by decide⟩),
        ("start", .integer 0)]⟩

/-- The line of a clip is read as an action, but not as an equal one. -/
theorem printed_lines_stand_crowded :
    let executor := Executor.printing .json Executor.append
    let line :=
      "\x7b\"kind\":\"add_clip\",\"payload\":" ++
        "\x7b\"length\":0.9394637704138129,\"start\":0\x7d\x7d"
    execute executor [crowded] ⟨.fresh, ""⟩ = (.ok 1, ⟨.fresh, line ++ "\n"⟩) ∧
      ∃ read,
        Action.ofText? line = some read ∧ read.agrees crowded = false := by
  intro executor line
  have written : crowded.toText = line := by
    decide +kernel
  constructor
  · have carried :=
      @Executor.carriesOut_printing .fresh rfl .json [crowded] ""
    rw [String.empty_append, List.map_singleton, Report.lines_singleton,
      show crowded.line .json = line from written] at carried
    exact execute_of_account (.finished carried)
  · have unequal :
        (Action.ofText? line).map (·.agrees crowded) = some false := by
      decide +kernel
    exact Option.map_eq_some_iff.1 unequal

end Plan

end VerbChain
