import VerbChain.Proofs.Language.Outcomes
import VerbChain.Proofs.Plan.Persistence
import VerbChain.Proofs.Yaml.ReadBack

namespace VerbChain

/-!
# Plain plans in either notation

The data of a plain action are shallow and its whole numbers are small, so a
plan of such actions is within what both notations can hold.  What is left to
ask is that numbers with a fraction read back from JSON, and that a YAML text
spells the tree that it was written from.
-/

namespace Json

private theorem itemsParts_eq_flatMap (items : List Json) :
    itemsParts items = items.flatMap parts := by
  induction items with
  | nil => rfl
  | cons item others inductionHypothesis =>
      rw [itemsParts, inductionHypothesis, List.flatMap_cons]

private theorem fieldsParts_eq_flatMap (fields : List (String × Json)) :
    fieldsParts fields = fields.flatMap fun field => field.2.parts := by
  induction fields with
  | nil => rfl
  | cons field others inductionHypothesis =>
      rw [fieldsParts, inductionHypothesis, List.flatMap_cons]

private theorem itemsDepth_le
    {items : List Json}
    {most : Nat}
    (shallow : ∀ item ∈ items, item.depth ≤ most) :
    itemsDepth items ≤ most := by
  induction items with
  | nil => exact Nat.zero_le most
  | cons item others inductionHypothesis =>
      obtain ⟨here, later⟩ := List.forall_mem_cons.1 shallow
      exact Nat.max_le.2 ⟨here, inductionHypothesis later⟩

private theorem fieldsDepth_le
    {fields : List (String × Json)}
    {most : Nat}
    (shallow : ∀ field ∈ fields, field.2.depth ≤ most) :
    fieldsDepth fields ≤ most := by
  induction fields with
  | nil => exact Nat.zero_le most
  | cons field others inductionHypothesis =>
      obtain ⟨here, later⟩ := List.forall_mem_cons.1 shallow
      exact Nat.max_le.2 ⟨here, inductionHypothesis later⟩

theorem IsPlain.depth_le
    {json : Json}
    (plain : json.IsPlain) :
    json.depth ≤ 1 := by
  cases json with
  | object fields => exact plain.elim
  | array items =>
      obtain ⟨texts, rfl⟩ := plain
      refine Nat.succ_le_succ (itemsDepth_le fun item member => ?_)
      obtain ⟨text, _, rfl⟩ := List.mem_map.1 member
      exact Nat.le_refl 0
  | _ => exact Nat.zero_le 1

theorem IsPlain.isStandard
    {json : Json}
    (plain : json.IsPlain) :
    ∀ part ∈ json.parts, part.IsStandard := by
  cases json with
  | object fields => exact plain.elim
  | array items =>
      obtain ⟨texts, rfl⟩ := plain
      refine List.forall_mem_cons.2 ⟨trivial, fun part member => ?_⟩
      rw [itemsParts_eq_flatMap] at member
      obtain ⟨item, itemMember, inItem⟩ := List.mem_flatMap.1 member
      obtain ⟨text, _, rfl⟩ := List.mem_map.1 itemMember
      rw [List.mem_singleton.1 inItem]
      trivial
  | integer value =>
      have exact : greatestExact = 9007199254740991 := rfl
      have small : value.natAbs ≤ greatestExact := plain
      intro part member
      rw [List.mem_singleton.1 member]
      show -(2 ^ 63) ≤ value ∧ value < 2 ^ 64
      omega
  | _ =>
      intro part member
      rw [List.mem_singleton.1 member]
      trivial

end Json

namespace Action

theorem IsPlain.depth_le
    {action : Action}
    (plain : action.IsPlain) :
    action.toStored.depth ≤ 3 := by
  rw [depth_toStored]
  exact
    Nat.add_le_add_right
      (Json.fieldsDepth_le fun entry member => (plain entry member).depth_le) 2

theorem IsPlain.isStandard
    {action : Action}
    (plain : action.IsPlain) :
    ∀ part ∈ action.toStored.parts, part.IsStandard := by
  intro part member
  simp only [toStored, Json.parts, Json.fieldsParts, List.append_nil,
    List.mem_cons, List.mem_append, List.not_mem_nil, or_false] at member
  rcases member with rfl | rfl | rfl | inPayload
  · exact List.pairwise_pair.2 (show "kind" < "payload" by decide)
  · trivial
  · exact action.payload.ordered
  · rw [Json.fieldsParts_eq_flatMap] at inPayload
    obtain ⟨entry, entryMember, inEntry⟩ := List.mem_flatMap.1 inPayload
    exact (plain entry entryMember).isStandard part inEntry

/-- From a node that spells a stored action the action is read. -/
theorem reads_ofNode
    {node : YamlNode}
    {action : Action}
    (spelled : node.tree? = some action.toStored)
    (standard : ∀ part ∈ action.toStored.parts, part.IsStandard)
    {room : Nat}
    (shallow : action.toStored.depth ≤ room) :
    YamlReader.Reads (ofNode room node) action := by
  obtain ⟨fields, rfl, spelledFields⟩ :=
    YamlNode.exists_of_tree?_object spelled
  obtain ⟨nodes, read, alike⟩ := YamlReader.reads_nodes spelledFields
  obtain _ | @⟨kindNode, _, _, _, spelledKind, alike⟩ := alike
  obtain _ | @⟨payloadNode, _, _, _, spelledPayload, alike⟩ := alike
  cases alike
  rw [depth_toStored] at shallow
  cases room with
  | zero => cases shallow
  | succ room =>
      -- The record takes one level and the payload in it has the others.
      have parts :
          YamlReader.Reads
            (YamlReader.record ["kind", "payload"] (room + 1)
              (.mapping none fields))
            [("kind", kindNode), ("payload", payloadNode)] :=
        YamlReader.reads_record read rfl (by simp)
      have kind : YamlReader.Reads (YamlReader.text kindNode) action.kind := by
        obtain ⟨style, rfl⟩ := YamlNode.exists_of_tree?_string spelledKind
        exact .pure action.kind
      have payload :
          YamlReader.Reads (YamlReader.table room payloadNode)
            action.payload :=
        YamlReader.reads_table spelledPayload
          (fun part member => standard part (mem_parts_toStored member))
          (Nat.le_of_succ_le_succ shallow)
      exact parts.bind (kind.bind (payload.map (Action.mk action.kind)))

end Action

namespace Plan

variable {plan : Plan}

theorem depth_le_of_plain (plain : ∀ action ∈ plan, action.IsPlain) :
    plan.toStored.depth ≤ 4 := by
  refine Nat.succ_le_succ (Json.itemsDepth_le fun item member => ?_)
  obtain ⟨action, actionMember, rfl⟩ := List.mem_map.1 member
  exact (plain action actionMember).depth_le

theorem isStandard_of_plain (plain : ∀ action ∈ plan, action.IsPlain) :
    ∀ part ∈ plan.toStored.parts, part.IsStandard := by
  refine List.forall_mem_cons.2 ⟨trivial, fun part member => ?_⟩
  rw [Json.itemsParts_eq_flatMap] at member
  obtain ⟨item, itemMember, inItem⟩ := List.mem_flatMap.1 member
  obtain ⟨action, actionMember, rfl⟩ := List.mem_map.1 itemMember
  exact (plain action actionMember).isStandard part inItem

/-- From nodes that spell stored actions the actions are read. -/
private theorem reads_mapM_ofNode
    {items : List YamlNode}
    (spelled :
      YamlNode.itemTrees? items = some (plan.map Action.toStored))
    (standard :
      ∀ part ∈ Json.itemsParts (plan.map Action.toStored), part.IsStandard)
    {room : Nat}
    (shallow : Json.itemsDepth (plan.map Action.toStored) ≤ room) :
    YamlReader.Reads (items.mapM (Action.ofNode room)) plan := by
  induction items generalizing plan with
  | nil =>
      cases plan with
      | nil => exact .pure []
      | cons action others => cases spelled
  | cons item items inductionHypothesis =>
      obtain ⟨first, spelledFirst, spelled⟩ :=
        Option.bind_eq_some_iff.1 spelled
      obtain ⟨rest, spelledRest, same⟩ := Option.map_eq_some_iff.1 spelled
      cases plan with
      | nil => cases same
      | cons action others =>
          cases same
          obtain ⟨shallowFirst, shallowRest⟩ := Nat.max_le.1 shallow
          have readFirst :=
            Action.reads_ofNode spelledFirst
              (fun part member => standard part (List.mem_append_left _ member))
              shallowFirst
          have readRest :=
            inductionHypothesis spelledRest
              (fun part member =>
                standard part (List.mem_append_right _ member))
              shallowRest
          rw [List.mapM_cons]
          exact readFirst.bind (readRest.map (List.cons action))

/-- A YAML text that spells a stored plan is read as the plan. -/
theorem ofText?_yaml
    {text : String}
    (plain : ∀ action ∈ plan, action.IsPlain)
    (spelled : YamlDocument.tree? text = some plan.toStored) :
    ofText? text .yaml = some plan := by
  obtain ⟨document, found, spelledRoot⟩ := Option.bind_eq_some_iff.1 spelled
  obtain ⟨items, root, spelledItems⟩ :=
    YamlNode.exists_of_tree?_array spelledRoot
  have shallow : Json.itemsDepth (plan.map Action.toStored) ≤ 127 :=
    Nat.le_trans (Nat.le_of_succ_le_succ (depth_le_of_plain plain))
      (by decide)
  have read :=
    reads_mapM_ofNode spelledItems
      (fun part member =>
        isStandard_of_plain plain part (List.mem_cons_of_mem _ member))
      shallow
  rw [ofText?, YamlReader.decode?, found, Option.bind_some, root,
    YamlReader.levels, YamlReader.list_sequence, read]
  rfl

/-- What is asked of a notation so that a plan can be stored in it. -/
def Holds (plan : Plan) : PlanNotation → Prop
  | .json => ∀ part ∈ plan.toStored.parts, part.Rereads
  | .yaml => YamlDocument.tree? (plan.toText .yaml) = some plan.toStored

/-- A plain plan is read back from its text in a notation that holds it. -/
theorem ofText?_toText_of_plain
    {form : PlanNotation}
    (plain : ∀ action ∈ plan, action.IsPlain)
    (holds : plan.Holds form) :
    ofText? (plan.toText form) form = some plan := by
  cases form with
  | json =>
      have shallow : plan.toStored.depth ≤ JsonDocument.levels :=
        Nat.le_trans (depth_le_of_plain plain) (by decide)
      rw [ofText?_toText (isStandard_of_plain plain) holds, if_pos shallow]
  | yaml => exact ofText?_yaml plain holds

end Plan

end VerbChain
