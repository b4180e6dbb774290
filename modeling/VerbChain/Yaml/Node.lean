import VerbChain.Yaml.Layout

namespace VerbChain

/-!
# YAML nodes

The tree a YAML text says.  An anchor gives a node a name; the nodes with one
are kept beside the tree, and an alias in the tree tells where the node it
means is kept.
-/

/-- A node of a YAML text. -/
inductive YamlNode where
  /-- The node kept at a place. -/
  | alias (place : Nat)
  | scalar (tag : Option YamlTag) (style : YamlStyle) (content : String)
  | sequence (tag : Option YamlTag) (items : List YamlNode)
  | mapping (tag : Option YamlTag) (fields : List (YamlNode × YamlNode))
  deriving Repr

namespace YamlNode

/-- The node of a place where nothing is written. -/
def absent : YamlNode :=
  .scalar none .plain ""

/-- Whether a node is a scalar with no text and no quotes. -/
def isAbsent : YamlNode → Bool
  | .scalar _ style content => style == .plain && content == ""
  | _ => false

mutual

/-- How many parts a node has, a collection counting for two itself. -/
def size : YamlNode → Nat
  | .alias _ => 1
  | .scalar _ _ _ => 1
  | .sequence _ items => itemsSize items + 2
  | .mapping _ fields => fieldsSize fields + 2

/-- The parts of items together. -/
def itemsSize : List YamlNode → Nat
  | [] => 0
  | item :: items => size item + itemsSize items

/-- The parts of fields together. -/
def fieldsSize : List (YamlNode × YamlNode) → Nat
  | [] => 0
  | (key, value) :: fields => size key + size value + fieldsSize fields

end

end YamlNode

/--
The anchors of a document.  An anchor is kept at the place whose number is how
many names there were before it, and a later one takes a place over.
-/
structure YamlAnchors where
  /-- The place of each name, the latest first. -/
  names : List (String × Nat)
  /-- The number of the node kept at each place, the latest first. -/
  holders : List (Nat × Nat)
  /-- The nodes with an anchor, by number. -/
  nodes : List (Nat × YamlNode)
  deriving Repr

namespace YamlAnchors

/-- No anchors. -/
def none : YamlAnchors :=
  ⟨[], [], []⟩

/-- How many names there are. -/
def nameCount (anchors : YamlAnchors) : Nat :=
  ((anchors.names.map Prod.fst).eraseDups).length

/-- Name the node that starts here. -/
def start (anchors : YamlAnchors) (name : String) : YamlAnchors :=
  { anchors with
    names := (name, anchors.nameCount) :: anchors.names
    holders := (anchors.nameCount, anchors.holders.length) :: anchors.holders }

/-- Keep the node of a number. -/
def keep (anchors : YamlAnchors) (number : Nat) (node : YamlNode) :
    YamlAnchors :=
  { anchors with nodes := (number, node) :: anchors.nodes }

/-- The node kept at a place. -/
def find? (anchors : YamlAnchors) (place : Nat) : Option YamlNode :=
  (anchors.holders.lookup place).bind fun number =>
    anchors.nodes.lookup number

end YamlAnchors

/-- A YAML text as a tree. -/
structure YamlDocument where
  root : YamlNode
  anchors : YamlAnchors
  deriving Repr

namespace YamlDocument

/-- What is known while a tree is built. -/
structure Progress where
  /-- The tokens that are left. -/
  tokens : List YamlToken
  /-- What handles stand for in tags. -/
  handles : List (String × YamlTag)
  anchors : YamlAnchors

/-- A step that builds a part of a tree. -/
abbrev Builder := StateT Progress Option

namespace Builder

/-- The next token. -/
def next? : Builder (Option YamlToken) := do
  return (← get).tokens.head?

/-- Leave the next token behind. -/
def skip : Builder Unit :=
  modify fun progress => { progress with tokens := progress.tokens.drop 1 }

/-- Leave the next token behind if it is the given one. -/
def skipIf (token : YamlToken) : Builder Bool := do
  if (← next?) = some token then
    skip
    return true
  else return false

/-- Whether the next token is one of some tokens. -/
def isAt (choices : List YamlToken) : Builder Bool := do
  return (← next?).any choices.contains

/-- Build by a step, unless one of some tokens is next. -/
def orAbsent (ends : List YamlToken) (build : Builder YamlNode) :
    Builder YamlNode := do
  if ← isAt ends then return .absent else build

/-- Take the anchor that is next. -/
def anchor? : Builder (Option Nat) := do
  match ← next? with
  | some (.anchor name) =>
      skip
      let number := (← get).anchors.holders.length
      modify fun progress =>
        { progress with anchors := progress.anchors.start name }
      return some number
  | _ => return none

/-- Take the tag that is next, its handle replaced by what it stands for. -/
def tag? : Builder (Option YamlTag) := do
  match ← next? with
  | some (.tag lead suffix) =>
      skip
      if lead = "" then return some suffix
      else
        match (← get).handles.lookup lead with
        | some meaning => return some (meaning.append suffix)
        | none => failure
  | _ => return none

/-- Take an anchor and a tag, in either order. -/
def properties : Builder (Option Nat × Option YamlTag) := do
  match ← anchor? with
  | some number => return (some number, ← tag?)
  | none =>
      let tag ← tag?
      if tag.isSome then return (← anchor?, tag) else return (none, none)

mutual

/--
Build a node.  Block collections may stand where `inBlock` says so, and items
with no list of their own where `bareItems` says so.
-/
def node (inBlock bareItems : Bool) : (fuel : Nat) → Builder YamlNode
  | 0 => failure
  | fuel + 1 => do
      match ← next? with
      | some (.alias name) =>
          skip
          match (← get).anchors.names.lookup name with
          | some place => return .alias place
          | none => failure
      | _ =>
          let (number, tag) ← properties
          let built ← content inBlock bareItems (number, tag) fuel
          if let some number := number then
            modify fun progress =>
              { progress with anchors := progress.anchors.keep number built }
          return built

/-- Build what stands behind the anchor and the tag of a node. -/
def content (inBlock bareItems : Bool)
    (properties : Option Nat × Option YamlTag) :
    (fuel : Nat) → Builder YamlNode
  | 0 => failure
  | fuel + 1 => do
      let tag := properties.2
      match ← next? with
      | some (.scalar style text) =>
          skip
          return .scalar tag style text
      | some .openBracket =>
          skip
          return .sequence tag (← flowItems true fuel)
      | some .openBrace =>
          skip
          return .mapping tag (← flowFields true fuel)
      | some token =>
          if token = .dash ∧ bareItems then
            return .sequence tag (← bareListItems fuel)
          else if token = .listStart ∧ inBlock then
            skip
            return .sequence tag (← blockItems fuel)
          else if token = .tableStart ∧ inBlock then
            skip
            return .mapping tag (← blockFields fuel)
          else if properties = (none, none) then failure
          else return .scalar tag .plain ""
      | none =>
          if properties = (none, none) then failure
          else return .scalar tag .plain ""

/-- Build the items of a block list. -/
def blockItems : (fuel : Nat) → Builder (List YamlNode)
  | 0 => failure
  | fuel + 1 => do
      if ← skipIf .blockEnd then return []
      else if ← skipIf .dash then
        let item ← orAbsent [.dash, .blockEnd] (node true false fuel)
        return item :: (← blockItems fuel)
      else failure

/-- Build the items of a list that stands no further in than its key. -/
def bareListItems : (fuel : Nat) → Builder (List YamlNode)
  | 0 => failure
  | fuel + 1 => do
      if ← skipIf .dash then
        let item ←
          orAbsent [.dash, .key, .value, .blockEnd] (node true false fuel)
        return item :: (← bareListItems fuel)
      else return []

/-- Build the fields of a block table. -/
def blockFields : (fuel : Nat) → Builder (List (YamlNode × YamlNode))
  | 0 => failure
  | fuel + 1 => do
      if ← skipIf .blockEnd then return []
      else if ← skipIf .key then
        let part := orAbsent [.key, .value, .blockEnd] (node true true fuel)
        let key ← part
        let value ← if ← skipIf .value then part else pure .absent
        return (key, value) :: (← blockFields fuel)
      else failure

/-- Build the items between brackets. -/
def flowItems (isFirst : Bool) : (fuel : Nat) → Builder (List YamlNode)
  | 0 => failure
  | fuel + 1 => do
      if ← skipIf .closeBracket then return []
      else if isFirst || (← skipIf .comma) then
        if ← skipIf .key then
          let pair ← flowPair fuel
          return .mapping none [pair] :: (← flowItems false fuel)
        else if ← skipIf .closeBracket then return []
        else
          let item ← node false false fuel
          return item :: (← flowItems false fuel)
      else failure

/--
Build a pair between brackets, its key mark taken.  A key mark with nothing
behind it takes the next token with it.
-/
def flowPair : (fuel : Nat) → Builder (YamlNode × YamlNode)
  | 0 => failure
  | fuel + 1 => do
      let key ←
        if ← isAt [.value, .comma, .closeBracket] then
          skip
          pure YamlNode.absent
        else node false false fuel
      let value ←
        if ← skipIf .value then
          orAbsent [.comma, .closeBracket] (node false false fuel)
        else pure .absent
      return (key, value)

/-- Build the fields between braces. -/
def flowFields (isFirst : Bool) :
    (fuel : Nat) → Builder (List (YamlNode × YamlNode))
  | 0 => failure
  | fuel + 1 => do
      if ← skipIf .closeBrace then return []
      else if isFirst || (← skipIf .comma) then
        if ← skipIf .key then
          let key ←
            orAbsent [.value, .comma, .closeBrace] (node false false fuel)
          let value ←
            if ← skipIf .value then
              orAbsent [.comma, .closeBrace] (node false false fuel)
            else pure .absent
          return (key, value) :: (← flowFields false fuel)
        else if ← skipIf .closeBrace then return []
        else
          let key ← node false false fuel
          return (key, .absent) :: (← flowFields false fuel)
      else failure

end

/-- Whether a token belongs to the head of a document. -/
def isDirective : YamlToken → Bool
  | .version _ _ => true
  | .handle _ _ => true
  | _ => false

/-- The handles that stand for something in every document. -/
def standardHandles : List (String × YamlTag) :=
  [("!", .mark), ("!!", .core "")]

/-- The handles that directives declare; none twice, and one version at most. -/
def declared? (directives : List YamlToken) :
    Option (List (String × YamlTag)) :=
  let versions :=
    directives.filterMap fun
      | .version major minor => some (major, minor)
      | _ => none
  let handles :=
    directives.filterMap fun
      | .handle name meaning => some (name, meaning)
      | _ => none
  let isKnown := fun version : Nat × Nat =>
    version == (1, 1) || version == (1, 2)
  if versions.length ≤ 1 ∧ versions.all isKnown ∧
      (handles.map Prod.fst).Nodup then
    some (handles ++ standardHandles)
  else none

/-- Build the tree of a document whose start is marked. -/
def markedRoot (fuel : Nat) : Builder YamlNode := do
  match ← next? with
  | none => return .absent
  | some token =>
      if isDirective token ∨ token = .documentStart ∨ token = .documentEnd then
        return .absent
      else node true false fuel

/-- Build the tree of a text with one document at most. -/
def root (fuel : Nat) : Builder YamlNode := do
  let directives := (← get).tokens.takeWhile isDirective
  match declared? directives with
  | none => failure
  | some handles =>
      modify fun progress =>
        { progress with
          tokens := progress.tokens.dropWhile isDirective
          handles := handles }
      if (← next?).isNone ∧ directives = [] then return .absent
      else if ← skipIf .documentStart then markedRoot fuel
      else if directives = [] then node true false fuel
      else failure

end Builder

/-- Build the tree of tokens that make up one document at most. -/
def ofTokens? (tokens : List YamlToken) : Option YamlDocument :=
  (Builder.root (2 * tokens.length + 2) |>.run ⟨tokens, [], .none⟩).bind
    fun (root, progress) =>
      if progress.tokens.all (· == .documentEnd) then
        some ⟨root, progress.anchors⟩
      else none

/-- Read the tree of a YAML text. -/
def ofText? (text : String) : Option YamlDocument :=
  (YamlToken.ofText? text.toList).bind ofTokens?

end YamlDocument

end VerbChain
