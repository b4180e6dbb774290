import VerbChain.Files.Tree
import VerbChain.Plan.Storage
import VerbChain.Proofs.Json.ReadBack

namespace VerbChain

/-!
# Stored plans are loaded as they were saved

A plan is stored as a list of records, and each of the readers takes one level:
the list, the record of an action and its payload.  So a plan is read back where
its text has no more levels of brackets than a text may have.  What was written
to a file is what is read there, whatever the file held before.
-/

namespace Action

/-- The two parts of a stored action are found, each of them once. -/
theorem record?_document
    (action : Action)
    (room : Nat) :
    action.toStored.document.record? ["kind", "payload"] room =
      if room = 0 then none
      else
        some
          [("kind", .string (JsonPiece.ofText action.kind)),
            ("payload",
              .object (Json.fieldDocuments action.payload.entries))] := by
  simp only [toStored, Json.document, Json.fieldDocuments,
    JsonDocument.record?, JsonDocument.ownFields?, List.mapM_cons,
    List.mapM_nil, JsonPiece.text?_ofText]
  rfl

/-- Below the level of its record a stored action is read by its payload. -/
theorem ofStored?_of_room
    {room : Nat}
    (action : Action)
    (some : room ≠ 0) :
    ofStored? room action.toStored.document =
      (JsonDocument.table? (room - 1)
          (.object (Json.fieldDocuments action.payload.entries))).map
        (⟨action.kind, ·⟩) := by
  rw [ofStored?, record?_document, if_neg some]
  show
    (JsonPiece.text? (JsonPiece.ofText action.kind)).bind
        (fun kind =>
          (JsonDocument.table? (room - 1)
            (.object (Json.fieldDocuments action.payload.entries))).bind
              fun payload => Option.some (⟨kind, payload⟩ : Action)) = _
  rw [JsonPiece.text?_ofText, Option.bind_some, Option.map_eq_bind]
  rfl

theorem table?_fieldDocuments
    {payload : Payload}
    (readable :
      ∀ part ∈ Json.fieldsParts payload.entries,
        part.IsStandard ∧ part.Rereads)
    (room : Nat) :
    JsonDocument.table? room
        (.object (Json.fieldDocuments payload.entries)) =
      if Json.fieldsDepth payload.entries < room then some payload
      else none := by
  cases room with
  | zero => rfl
  | succ room =>
      have same : Table.ofList payload.entries = payload :=
        Table.ext_entries (Table.entries_ofList payload.ordered)
      rw [JsonDocument.table?,
        JsonDocument.toFields?_fieldDocuments readable room]
      simp only [Nat.lt_add_one_iff]
      split
      · exact congrArg some same
      · rfl

theorem depth_toStored (action : Action) :
    action.toStored.depth = Json.fieldsDepth action.payload.entries + 2 := by
  simp [toStored, Json.depth, Json.fieldsDepth]

theorem mem_parts_toStored
    {action : Action}
    {part : Json}
    (member : part ∈ Json.fieldsParts action.payload.entries) :
    part ∈ action.toStored.parts := by
  simp [toStored, Json.parts, Json.fieldsParts, member]

/-- A stored action is read back where there is room for its levels. -/
theorem ofStored?_document
    {action : Action}
    (readable :
      ∀ part ∈ action.toStored.parts, part.IsStandard ∧ part.Rereads)
    (room : Nat) :
    ofStored? room action.toStored.document =
      if action.toStored.depth ≤ room then some action else none := by
  have payload :=
    table?_fieldDocuments
      (fun part member => readable part (mem_parts_toStored member))
      (room - 1)
  rw [depth_toStored]
  -- The record takes one level and the payload in it another.
  by_cases closed : room = 0
  · subst closed
    rfl
  · rw [ofStored?_of_room action closed, payload]
    by_cases shallow : Json.fieldsDepth action.payload.entries < room - 1
    · rw [if_pos shallow, if_pos (by omega)]
      rfl
    · rw [if_neg shallow, if_neg (by omega)]
      rfl

end Action

namespace Plan

private theorem mapM_ofStored?
    {plan : Plan}
    (readable :
      ∀ part ∈ Json.itemsParts (plan.map Action.toStored),
        part.IsStandard ∧ part.Rereads)
    (room : Nat) :
    (Json.documents (plan.map Action.toStored)).mapM
        (Action.ofStored? room) =
      if Json.itemsDepth (plan.map Action.toStored) ≤ room then some plan
      else none := by
  induction plan with
  | nil => exact (if_pos (Nat.zero_le room)).symm
  | cons action others inductionHypothesis =>
      have first :=
        Action.ofStored?_document
          (fun part member => readable part (List.mem_append_left _ member))
          room
      have later :=
        inductionHypothesis
          (fun part member => readable part (List.mem_append_right _ member))
      simp only [List.map_cons, Json.documents, List.mapM_cons, first, later,
        Json.itemsDepth, Nat.max_le]
      by_cases shallow : action.toStored.depth ≤ room <;>
        by_cases shallows :
          Json.itemsDepth (others.map Action.toStored) ≤ room <;>
        simp [shallow, shallows]

/-- The text of a plan is read as the plan, unless it is too deep. -/
theorem ofText?_toText
    {plan : Plan}
    (standard : ∀ part ∈ plan.toStored.parts, part.IsStandard)
    (rereads : ∀ part ∈ plan.toStored.parts, part.Rereads) :
    ofText? (plan.toText .json) .json =
      if plan.toStored.depth ≤ JsonDocument.levels then some plan else none := by
  have actions :=
    mapM_ofStored?
      (fun part member =>
        ⟨standard part (List.mem_cons_of_mem _ member),
          rereads part (List.mem_cons_of_mem _ member)⟩)
      126
  rw [ofText?, toText, Json.pretty, JsonDocument.decode?, String.toList_ofList,
    JsonDocument.ofText?_write JsonSpacing.blank_pretty, Option.bind_some]
  simp only [toStored, Json.document, Json.depth, JsonDocument.levels,
    JsonDocument.list?, Nat.reduceLeDiff, actions]

/-- The text of a plan has as many levels of brackets as the plan is deep. -/
theorem nesting?_pretty (plan : Plan) :
    JsonToken.nesting? plan.toStored.pretty.toList =
      some plan.toStored.depth := by
  rw [Json.pretty, String.toList_ofList]
  exact JsonToken.nesting?_write JsonSpacing.blank_pretty 0 plan.toStored

/-- The file that a plan was saved to holds the text of the plan. -/
theorem read_of_save
    {plan : Plan}
    {path : String}
    {tree next : FileTree}
    (saved : (plan.save path : StateM FileTree _) tree = (.ok (), next)) :
    next.read path = .ok (plan.toText (.ofPath path)) := by
  simp only [save, bind, StateT.bind, FileAccess.makeFolders,
    FileAccess.writeFile] at saved
  generalize tree.makeFolders path = above at saved
  obtain ⟨answer, made⟩ := above
  cases answer with
  | error error => cases saved
  | ok nothing =>
      simp only at saved
      cases written : made.write path (plan.toText (.ofPath path)) with
      | error error =>
          rw [written] at saved
          cases saved
      | ok after =>
          rw [written] at saved
          cases saved
          exact FileTree.read_of_write written

/-- What loading answers is what the text of the file is read as. -/
theorem load_of_read
    {path text : String}
    {tree : FileTree}
    (read : tree.read path = .ok text) :
    (load path : StateM FileTree _) tree =
      (match ofText? text (.ofPath path) with
        | some plan => .ok plan
        | none => .error .invalidData,
        tree) := by
  simp only [load, bind, StateT.bind, FileAccess.readFile, read]
  cases ofText? text (.ofPath path) <;> rfl

/--
A plan that was saved to a file whose extension is not that of YAML is loaded
as it was, if its text has no more than 127 levels of brackets; otherwise the
file does not hold what it should.  Numbers with a fraction are taken to read
back.
-/
theorem loads_as_saved
    {plan : Plan}
    {path : String}
    {tree next : FileTree}
    (notYaml : Path.extension? path ≠ some "yaml")
    (notYml : Path.extension? path ≠ some "yml")
    (standard : ∀ part ∈ plan.toStored.parts, part.IsStandard)
    (rereads : ∀ part ∈ plan.toStored.parts, part.Rereads)
    (saved : (plan.save path : StateM FileTree _) tree = (.ok (), next)) :
    ∃ levels,
      JsonToken.nesting? plan.toStored.pretty.toList = some levels ∧
        ((load path : StateM FileTree _) next = (.ok plan, next) ↔
          levels ≤ 127) ∧
        (¬levels ≤ 127 →
          (load path : StateM FileTree _) next =
            (.error .invalidData, next)) := by
  have inJson : PlanNotation.ofPath path = .json :=
    if_neg (not_or.2 ⟨notYaml, notYml⟩)
  have loaded := load_of_read (read_of_save saved)
  rw [inJson, ofText?_toText standard rereads] at loaded
  refine ⟨plan.toStored.depth, nesting?_pretty plan, ?_⟩
  rw [loaded]
  by_cases shallow : plan.toStored.depth ≤ 127
  · rw [if_pos (show _ ≤ JsonDocument.levels from shallow)]
    exact ⟨⟨fun _ => shallow, fun _ => rfl⟩, fun deep => absurd shallow deep⟩
  · rw [if_neg (show ¬_ ≤ JsonDocument.levels from shallow)]
    refine ⟨⟨?_, fun within => absurd within shallow⟩, fun _ => rfl⟩
    intro same
    cases same

/-- Two actions, one with a nested payload and one without data. -/
def scene : Plan :=
  [⟨"add_clip",
      .ofList
        [("length", .float false ⟨0x4021000000000000, by decide⟩),
          ("name", .string "\"lead\"\n\x01é"),
          ("notes", .array [.integer 60, .null, .object []])]⟩,
    .bare "stop"]

/-- The files once the scene was saved where there was another file. -/
def sceneFiles : FileTree :=
  (FileTree.ofList [("plans/scene.json", "old")]).put ["plans", "scene.json"]
    (.file (scene.toText .json))

theorem scene_loads_as_saved :
    (load "plans/scene.json" : StateM FileTree _) sceneFiles =
      (.ok scene, sceneFiles) := by
  have saved :
      (scene.save "plans/scene.json" : StateM FileTree _)
          (FileTree.ofList [("plans/scene.json", "old")]) =
        (.ok (), sceneFiles) :=
    rfl
  obtain ⟨levels, nested, loads, _⟩ :=
    loads_as_saved (by decide +kernel) (by decide +kernel) (by decide +kernel)
      (by decide +kernel) saved
  have shallow : levels ≤ 127 := by
    rw [nesting?_pretty] at nested
    cases nested
    decide +kernel
  exact loads.2 shallow

end Plan

end VerbChain
