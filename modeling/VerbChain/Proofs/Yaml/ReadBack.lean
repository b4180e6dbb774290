import Mathlib.Data.List.Forall2
import VerbChain.Plan.Storage
import VerbChain.Proofs.Json.ReadBack

namespace VerbChain

/-!
# Reading plans from YAML

A node without tags and aliases spells a tree: its plain scalars stand for what
they stand for and its fields are in the order they are written in.  From a text
that spells a stored plan, the plan is read.  Whether a text spells the tree
that it was written from is not asked here.
-/

namespace YamlNode

mutual

/-- The tree that a node spells without tags and aliases. -/
def tree? : YamlNode → Option Json
  | .scalar none style content => YamlReader.scalarJson? none style content
  | .sequence none items => (itemTrees? items).map Json.array
  | .mapping none fields => (fieldTrees? fields).map Json.object
  | _ => none

/-- The trees that items spell. -/
def itemTrees? : List YamlNode → Option (List Json)
  | [] => some []
  | item :: items =>
      (tree? item).bind fun first => (itemTrees? items).map (first :: ·)

/-- The keys of fields, which are scalars, and the trees behind them. -/
def fieldTrees? : List (YamlNode × YamlNode) → Option (List (String × Json))
  | [] => some []
  | (.scalar _ _ key, value) :: fields =>
      (tree? value).bind fun first =>
        (fieldTrees? fields).map ((key, first) :: ·)
  | _ => none

end

end YamlNode

/-- The tree that a YAML text spells. -/
def YamlDocument.tree? (text : String) : Option Json :=
  (ofText? text).bind fun document => document.root.tree?

namespace Json

mutual

/-- Whether two values are the same; zeros with different signs are not. -/
def same : Json → Json → Bool
  | .null, .null => true
  | .bool left, .bool right => left == right
  | .integer left, .integer right => left == right
  | .float signLeft left, .float signRight right =>
      signLeft == signRight && left == right
  | .string left, .string right => left == right
  | .array left, .array right => sameItems left right
  | .object left, .object right => sameFields left right
  | _, _ => false

/-- Whether items are the same, place by place. -/
def sameItems : List Json → List Json → Bool
  | [], [] => true
  | left :: lefts, right :: rights => same left right && sameItems lefts rights
  | _, _ => false

/-- Whether fields are the same, place by place. -/
def sameFields : List (String × Json) → List (String × Json) → Bool
  | [], [] => true
  | (leftKey, left) :: lefts, (rightKey, right) :: rights =>
      leftKey == rightKey && same left right && sameFields lefts rights
  | _, _ => false

end

mutual

/-- Values are the same when they are equal. -/
theorem same_iff (left right : Json) :
    same left right = true ↔ left = right := by
  cases left with
  | array items =>
      cases right with
      | array others =>
          rw [same, sameItems_iff items others, Json.array.injEq]
      | _ => simp [same]
  | object fields =>
      cases right with
      | object others =>
          rw [same, sameFields_iff fields others, Json.object.injEq]
      | _ => simp [same]
  | _ => cases right <;> simp [same]

theorem sameItems_iff (left right : List Json) :
    sameItems left right = true ↔ left = right := by
  cases left with
  | nil => cases right <;> simp [sameItems]
  | cons item items =>
      cases right with
      | nil => simp [sameItems]
      | cons other others =>
          rw [sameItems, Bool.and_eq_true, same_iff item other,
            sameItems_iff items others, List.cons.injEq]

theorem sameFields_iff (left right : List (String × Json)) :
    sameFields left right = true ↔ left = right := by
  cases left with
  | nil => cases right <;> simp [sameFields]
  | cons field fields =>
      cases right with
      | nil => simp [sameFields]
      | cons other others =>
          obtain ⟨key, value⟩ := field
          obtain ⟨otherKey, otherValue⟩ := other
          rw [sameFields, Bool.and_eq_true, Bool.and_eq_true, beq_iff_eq,
            same_iff value otherValue, sameFields_iff fields others,
            List.cons.injEq, Prod.mk.injEq]

end

instance : DecidableEq Json :=
  fun left right => decidable_of_iff _ (same_iff left right)

end Json

namespace YamlReader

/-- A reader reads a value and follows no alias. -/
def Reads (reader : YamlReader α) (value : α) : Prop :=
  ∀ anchors left, (reader.run anchors).run left = some (value, left)

namespace Reads

theorem pure (value : α) : Reads (Pure.pure value) value :=
  fun _ _ => rfl

/-- One reader behind the other. -/
theorem bind
    {reader : YamlReader α}
    {next : α → YamlReader β}
    {value : α}
    {result : β}
    (first : Reads reader value)
    (second : Reads (next value) result) :
    Reads (reader >>= next) result := by
  intro anchors left
  show
    ((reader.run anchors).run left).bind
      (fun read => ((next read.1).run anchors).run read.2) = _
  rw [first anchors left]
  exact second anchors left

theorem map
    {reader : YamlReader α}
    {value : α}
    (first : Reads reader value)
    (view : α → β) :
    Reads (reader >>= fun found => Pure.pure (view found)) (view value) :=
  first.bind (pure (view value))

end Reads

/-- A key and the value behind it. -/
def pair (read : YamlNode → YamlReader α) (field : YamlNode × YamlNode) :
    YamlReader (String × α) := do
  return (← text field.1, ← read field.2)

private theorem reads_pair
    {read : YamlNode → YamlReader α}
    {node : YamlNode}
    {value : α}
    (tag : Option YamlTag)
    (style : YamlStyle)
    (key : String)
    (behind : Reads (read node) value) :
    Reads (pair read (.scalar tag style key, node)) (key, value) :=
  Reads.bind (show Reads (text (.scalar tag style key)) key from .pure key)
    (behind.bind (.pure (key, value)))

theorem json_scalar
    (room : Nat)
    (style : YamlStyle)
    (content : String) :
    json room (.scalar none style content) =
      match scalarJson? none style content with
      | some value => Pure.pure value
      | none => failure := by
  delta json
  cases room <;> rfl

theorem json_sequence
    (room : Nat)
    (items : List YamlNode) :
    json (room + 1) (.sequence none items) =
      items.mapM (json room) >>= fun values => Pure.pure (.array values) := by
  delta json
  rfl

theorem json_mapping
    (room : Nat)
    (fields : List (YamlNode × YamlNode)) :
    json (room + 1) (.mapping none fields) =
      fields.mapM (pair (json room)) >>= fun pairs =>
        Pure.pure (.object (Table.ofList pairs).entries) := by
  delta json
  rfl

theorem table_mapping
    (room : Nat)
    (tag : Option YamlTag)
    (fields : List (YamlNode × YamlNode)) :
    table (room + 1) (.mapping tag fields) =
      fields.mapM (pair (json room)) >>= fun pairs =>
        Pure.pure (.ofList pairs) :=
  rfl

theorem list_sequence
    (item : Nat → YamlNode → YamlReader α)
    (room : Nat)
    (tag : Option YamlTag)
    (items : List YamlNode) :
    list item (room + 1) (.sequence tag items) = items.mapM (item room) :=
  rfl

theorem record_mapping
    (parts : List String)
    (room : Nat)
    (tag : Option YamlTag)
    (fields : List (YamlNode × YamlNode)) :
    record parts (room + 1) (.mapping tag fields) =
      fields.mapM (pair Pure.pure) >>= fun named =>
        let own := named.filter fun field => parts.contains field.1
        if (own.map Prod.fst).Nodup then Pure.pure own else failure :=
  rfl

mutual

/-- From a node that spells a tree the tree is read where there is room. -/
theorem reads_json
    {node : YamlNode}
    {tree : Json}
    (spelled : node.tree? = some tree)
    (standard : ∀ part ∈ tree.parts, part.IsStandard)
    {room : Nat}
    (shallow : tree.depth ≤ room) :
    Reads (json room node) tree := by
  cases node with
  | scalar tag style content =>
      cases tag with
      | some tag => cases spelled
      | none =>
          rw [YamlNode.tree?] at spelled
          rw [json_scalar, spelled]
          exact .pure tree
  | sequence tag items =>
      cases tag with
      | some tag => cases spelled
      | none =>
          rw [YamlNode.tree?] at spelled
          obtain ⟨trees, spelledItems, rfl⟩ := Option.map_eq_some_iff.1 spelled
          cases room with
          | zero => cases shallow
          | succ room =>
              have read :=
                reads_items spelledItems
                  (fun part member =>
                    standard part (List.mem_cons_of_mem _ member))
                  (Nat.le_of_succ_le_succ shallow)
              rw [json_sequence]
              exact read.map Json.array
  | mapping tag fields =>
      cases tag with
      | some tag => cases spelled
      | none =>
          rw [YamlNode.tree?] at spelled
          obtain ⟨trees, spelledFields, rfl⟩ :=
            Option.map_eq_some_iff.1 spelled
          cases room with
          | zero => cases shallow
          | succ room =>
              have read :=
                reads_fields spelledFields
                  (fun part member =>
                    standard part (List.mem_cons_of_mem _ member))
                  (Nat.le_of_succ_le_succ shallow)
              have sorted : (Table.ofList trees).entries = trees :=
                Table.entries_ofList (standard _ List.mem_cons_self)
              have result :=
                read.map fun pairs => Json.object (Table.ofList pairs).entries
              rw [sorted] at result
              rw [json_mapping]
              exact result
  | _ => cases spelled

theorem reads_items
    {items : List YamlNode}
    {trees : List Json}
    (spelled : YamlNode.itemTrees? items = some trees)
    (standard : ∀ part ∈ Json.itemsParts trees, part.IsStandard)
    {room : Nat}
    (shallow : Json.itemsDepth trees ≤ room) :
    Reads (items.mapM (json room)) trees := by
  cases items with
  | nil =>
      cases spelled
      exact .pure []
  | cons item items =>
      obtain ⟨first, spelledFirst, spelled⟩ :=
        Option.bind_eq_some_iff.1 spelled
      obtain ⟨others, spelledOthers, rfl⟩ := Option.map_eq_some_iff.1 spelled
      obtain ⟨shallowFirst, shallowOthers⟩ := Nat.max_le.1 shallow
      have readFirst :=
        reads_json spelledFirst
          (fun part member => standard part (List.mem_append_left _ member))
          shallowFirst
      have readOthers :=
        reads_items spelledOthers
          (fun part member => standard part (List.mem_append_right _ member))
          shallowOthers
      rw [List.mapM_cons]
      exact readFirst.bind (readOthers.bind (.pure _))

theorem reads_fields
    {fields : List (YamlNode × YamlNode)}
    {trees : List (String × Json)}
    (spelled : YamlNode.fieldTrees? fields = some trees)
    (standard : ∀ part ∈ Json.fieldsParts trees, part.IsStandard)
    {room : Nat}
    (shallow : Json.fieldsDepth trees ≤ room) :
    Reads (fields.mapM (pair (json room))) trees := by
  cases fields with
  | nil =>
      cases spelled
      exact .pure []
  | cons field fields =>
      obtain ⟨key, node⟩ := field
      cases key with
      | scalar tag style key =>
          obtain ⟨first, spelledFirst, spelled⟩ :=
            Option.bind_eq_some_iff.1 spelled
          obtain ⟨others, spelledOthers, rfl⟩ :=
            Option.map_eq_some_iff.1 spelled
          obtain ⟨shallowFirst, shallowOthers⟩ := Nat.max_le.1 shallow
          have readFirst :=
            reads_json spelledFirst
              (fun part member => standard part (List.mem_append_left _ member))
              shallowFirst
          have readOthers :=
            reads_fields spelledOthers
              (fun part member =>
                standard part (List.mem_append_right _ member))
              shallowOthers
          rw [List.mapM_cons]
          exact
            (reads_pair tag style key readFirst).bind
              (readOthers.bind (.pure _))
      | _ => cases spelled

end

/-- A scalar spells no list and no table. -/
private theorem depth_of_scalarJson?
    {style : YamlStyle}
    {content : String}
    {tree : Json}
    (spelled : scalarJson? none style content = some tree) :
    tree.depth = 0 := by
  simp only [scalarJson?, Option.filter_none] at spelled
  split at spelled
  · generalize PlainMeaning.ofText content = meaning at spelled
    cases meaning with
    | wide => cases spelled
    | float number =>
        cases spelled
        cases number <;> rfl
    | _ =>
        cases spelled
        rfl
  · cases spelled
    rfl

/-- A scalar that spells a text has that text. -/
private theorem content_of_scalarJson?
    {style : YamlStyle}
    {content text : String}
    (spelled : scalarJson? none style content = some (.string text)) :
    content = text := by
  simp only [scalarJson?, Option.filter_none] at spelled
  split at spelled
  · generalize PlainMeaning.ofText content = meaning at spelled
    cases meaning with
    | float number => cases number <;> cases spelled
    | verbatim =>
        cases spelled
        rfl
    | _ => cases spelled
  · cases spelled
    rfl

end YamlReader

namespace YamlNode

theorem exists_of_tree?_array
    {node : YamlNode}
    {trees : List Json}
    (spelled : node.tree? = some (.array trees)) :
    ∃ items, node = .sequence none items ∧ itemTrees? items = some trees := by
  unfold tree? at spelled
  split at spelled
  · cases YamlReader.depth_of_scalarJson? spelled
  · next items =>
      obtain ⟨others, spelledItems, same⟩ := Option.map_eq_some_iff.1 spelled
      cases same
      exact ⟨items, rfl, spelledItems⟩
  · next fields =>
      obtain ⟨others, _, same⟩ := Option.map_eq_some_iff.1 spelled
      cases same
  · cases spelled

theorem exists_of_tree?_object
    {node : YamlNode}
    {trees : List (String × Json)}
    (spelled : node.tree? = some (.object trees)) :
    ∃ fields,
      node = .mapping none fields ∧ fieldTrees? fields = some trees := by
  unfold tree? at spelled
  split at spelled
  · cases YamlReader.depth_of_scalarJson? spelled
  · next items =>
      obtain ⟨others, _, same⟩ := Option.map_eq_some_iff.1 spelled
      cases same
  · next fields =>
      obtain ⟨others, spelledFields, same⟩ :=
        Option.map_eq_some_iff.1 spelled
      cases same
      exact ⟨fields, rfl, spelledFields⟩
  · cases spelled

theorem exists_of_tree?_string
    {node : YamlNode}
    {content : String}
    (spelled : node.tree? = some (.string content)) :
    ∃ style, node = .scalar none style content := by
  unfold tree? at spelled
  split at spelled
  · next style found =>
      rw [YamlReader.content_of_scalarJson? spelled]
      exact ⟨style, rfl⟩
  · next items =>
      obtain ⟨others, _, same⟩ := Option.map_eq_some_iff.1 spelled
      cases same
  · next fields =>
      obtain ⟨others, _, same⟩ := Option.map_eq_some_iff.1 spelled
      cases same
  · cases spelled

end YamlNode

namespace YamlReader

/-- From a node that spells a table the table is read. -/
theorem reads_table
    {node : YamlNode}
    {table : Table Json}
    (spelled : node.tree? = some (.object table.entries))
    (standard : ∀ part ∈ Json.fieldsParts table.entries, part.IsStandard)
    {room : Nat}
    (shallow : Json.fieldsDepth table.entries < room) :
    Reads (YamlReader.table room node) table := by
  obtain ⟨fields, rfl, spelledFields⟩ :=
    YamlNode.exists_of_tree?_object spelled
  obtain ⟨room, rfl⟩ :=
    Nat.exists_eq_succ_of_ne_zero (Nat.ne_zero_of_lt shallow)
  have read :=
    reads_fields spelledFields standard (Nat.le_of_lt_succ shallow)
  have same : Table.ofList table.entries = table :=
    Table.ext_entries (Table.entries_ofList table.ordered)
  have result := read.map Table.ofList
  rw [same] at result
  rw [Nat.succ_eq_add_one, table_mapping]
  exact result

/-- The keys of fields are read with the nodes behind them. -/
theorem reads_nodes
    {fields : List (YamlNode × YamlNode)}
    {trees : List (String × Json)}
    (spelled : YamlNode.fieldTrees? fields = some trees) :
    ∃ nodes,
      Reads (fields.mapM (pair Pure.pure)) ((trees.map Prod.fst).zip nodes) ∧
        List.Forall₂ (fun node tree => node.tree? = some tree.2) nodes
          trees := by
  induction fields generalizing trees with
  | nil =>
      cases spelled
      exact ⟨[], .pure [], .nil⟩
  | cons field others inductionHypothesis =>
      obtain ⟨key, node⟩ := field
      cases key with
      | scalar tag style key =>
          obtain ⟨first, spelledFirst, spelled⟩ :=
            Option.bind_eq_some_iff.1 spelled
          obtain ⟨rest, spelledRest, rfl⟩ := Option.map_eq_some_iff.1 spelled
          obtain ⟨nodes, read, alike⟩ := inductionHypothesis spelledRest
          refine ⟨node :: nodes, ?_, .cons spelledFirst alike⟩
          rw [List.mapM_cons]
          exact
            (reads_pair tag style key (.pure node)).bind
              (read.bind (.pure _))
      | _ => cases spelled

/-- From fields under its parts, each of them once, a record is read. -/
theorem reads_record
    {parts : List String}
    {room : Nat}
    {tag : Option YamlTag}
    {fields : List (YamlNode × YamlNode)}
    {named : List (String × YamlNode)}
    (read : Reads (fields.mapM (pair Pure.pure)) named)
    (own : named.filter (fun field => parts.contains field.1) = named)
    (distinct : (named.map Prod.fst).Nodup) :
    Reads (record parts (room + 1) (.mapping tag fields)) named := by
  rw [record_mapping]
  refine read.bind ?_
  simp only [own, if_pos distinct]
  exact .pure named

end YamlReader

end VerbChain
