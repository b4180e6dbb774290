import VerbChain.Json.Basic
import VerbChain.Table
import VerbChain.Yaml.Node
import VerbChain.Yaml.Resolution

namespace VerbChain

/-!
# Reading values from YAML

A value is read from a node by what is wanted of it: a plain scalar that is
wanted as a text is its text, and one that may be any value is what it stands
for.  A place where nothing is written is an empty list or an empty table.  How
deep collections may lie inside each other is bounded, and so is how often an
alias may be followed.
-/

/-- Reading; the state is how often an alias may still be followed. -/
abbrev YamlReader := ReaderT YamlAnchors (StateT Nat Option)

namespace YamlReader

/-- How many levels of collections a document may have. -/
def levels : Nat := 128

/-- How often aliases may be followed for each part of a document. -/
def followsPerPart : Nat := 100

/-- The node itself, or the node an alias means. -/
def target (node : YamlNode) : YamlReader YamlNode := do
  match node with
  | .alias place =>
      match ← get with
      | 0 => failure
      | left + 1 =>
          set left
          match (← read).find? place with
          | some found => return found
          | none => failure
  | written => return written

/-- What a plain text stands for, when a value can hold it. -/
def plainJson? (meaning : PlainMeaning) (content : String) : Option Json :=
  match meaning with
  | .null => some .null
  | .bool value => some (.bool value)
  | .integer value => some (.integer value)
  | .wide => none
  | .float value => some (.ofBinary value)
  | .verbatim => some (.string content)

/-- What a scalar with a tag that is not local stands for. -/
def taggedJson? (tag : YamlTag) (content : String) : Option Json :=
  if tag = .core "null" then
    if PlainMeaning.isNull content then some .null else none
  else if tag = .core "bool" then
    (PlainMeaning.bool? content).map Json.bool
  else if tag = .core "int" then
    (PlainMeaning.integer? content.toList).bind fun meaning =>
      plainJson? meaning content
  else if tag = .core "float" then
    (PlainMeaning.float? content.toList).map Json.ofBinary
  else some (.string content)

/-- What a scalar stands for. -/
def scalarJson? (tag : Option YamlTag) (style : YamlStyle)
    (content : String) : Option Json :=
  match tag.filter fun tag => !tag.isLocal with
  | some tag => taggedJson? tag content
  | none =>
      if style = .plain then
        plainJson? (.ofText content) content
      else some (.string content)

/-- Read a text: that of a scalar, whatever it stands for. -/
def text (node : YamlNode) : YamlReader String := do
  match ← target node with
  | .scalar _ _ content => return content
  | _ => failure

/-- Read any value; none has a tag with a name of its own. -/
def json : (room : Nat) → YamlNode → YamlReader Json
  | room, node => do
      let found ← target node
      match room, found with
      | _, .scalar tag style content =>
          if (tag.bind YamlTag.localName?).isSome then failure
          else
            match scalarJson? tag style content with
            | some value => return value
            | none => failure
      | room + 1, .sequence tag items =>
          if (tag.bind YamlTag.localName?).isSome then failure
          else return .array (← items.mapM (json room))
      | room + 1, .mapping tag fields =>
          if (tag.bind YamlTag.localName?).isSome then failure
          else
            let pairs ←
              fields.mapM fun (key, value) => do
                return (← text key, ← json room value)
            return .object (Table.ofList pairs).entries
      | _, _ => failure

/-- Read a table of any values. -/
def table (room : Nat) (node : YamlNode) : YamlReader (Table Json) := do
  match room, ← target node with
  | room + 1, .mapping _ fields =>
      let pairs ←
        fields.mapM fun (key, value) => do
          return (← text key, ← json room value)
      return .ofList pairs
  | _, other => if other.isAbsent then return .empty else failure

/-- Read a list by a reader of its items. -/
def list (item : Nat → YamlNode → YamlReader α) (room : Nat)
    (node : YamlNode) : YamlReader (List α) := do
  match room, ← target node with
  | room + 1, .sequence _ items => items.mapM (item room)
  | _, other => if other.isAbsent then return [] else failure

/-- The parts of a record that are stored, by name: none of them twice. -/
def record (parts : List String) (room : Nat) (node : YamlNode) :
    YamlReader (List (String × YamlNode)) := do
  match room, ← target node with
  | _ + 1, .mapping _ fields =>
      let named ←
        fields.mapM fun (key, value) => do return (← text key, value)
      let own := named.filter fun field => parts.contains field.1
      if (own.map Prod.fst).Nodup then return own else failure
  | _, other => if other.isAbsent then return [] else failure

/-- Read a natural number of 64 bits. -/
def natural (node : YamlNode) : YamlReader Nat := do
  match ← target node with
  | .scalar tag style content =>
      let isNumeral :=
        style == .plain || (style == .literal && tag == some (.core "int"))
      match PlainMeaning.unsigned? content.toList with
      | some value =>
          if isNumeral ∧ value < 1 <<< 64 then return value else failure
      | none => failure
  | _ => failure

/-- Whether a scalar says that there is nothing. -/
def isNothing? (tag : Option YamlTag) (style : YamlStyle) (content : String) :
    Option Bool :=
  if style ≠ .plain then some false
  else if tag = some (.core "null") then
    if PlainMeaning.isNull content then some true else none
  else some (tag.isNone && (content == "" || PlainMeaning.isNull content))

/-- Read what there may be nothing of. -/
def optional (read : YamlNode → YamlReader α) (node : YamlNode) :
    YamlReader (Option α) := do
  let found ← target node
  match found with
  | .scalar tag style content =>
      match isNothing? tag style content with
      | some true => return none
      | some false => return some (← read found)
      | none => failure
  | _ => return some (← read found)

/-- Read the name of a choice: a text, or a tag in front of nothing. -/
def choice (node : YamlNode) : YamlReader String := do
  match ← target node with
  | .scalar tag style content =>
      match tag.bind YamlTag.localName? with
      | none => return content
      | some name =>
          if style = .plain ∧ (content = "" ∨ PlainMeaning.isNull content) then
            return name
          else failure
  | _ => failure

/-- Read a whole text by a reader of nodes. -/
def decode? (read : Nat → YamlNode → YamlReader α) (content : String) :
    Option α :=
  (YamlDocument.ofText? content).bind fun document =>
    ((read levels document.root).run document.anchors |>.run
      (document.root.size * followsPerPart)).map Prod.fst

end YamlReader

end VerbChain
