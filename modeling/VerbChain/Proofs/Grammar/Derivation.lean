import VerbChain.Chain.Basic
import VerbChain.Proofs.Grammar.Notation
import VerbChain.Proofs.Source.LexicalGrammar

namespace VerbChain

/-!
# Derivations

What a grammar generates.  A derivation is a tree whose leaves are texts of
terminals; a text is generated when it is those leaves from left to right, with
or without white space around each.  The chain that a derivation shows is read
off its tree alone, with no reader involved.
-/

namespace Grammar

/-- The lists whose items, one after the other, are accepted by a body. -/
inductive Expression.Matches (accepts : α → β → Prop) :
    Expression α → List β → Prop where
  | atom
      {item : α}
      {found : β}
      (accepted : accepts item found) :
      Matches accepts (.atom item) [found]
  | sequence
      {first second : Expression α}
      {left right : List β}
      (inFront : Matches accepts first left)
      (behind : Matches accepts second right) :
      Matches accepts (.sequence first second) (left ++ right)
  | first
      {first second : Expression α}
      {found : List β}
      (chosen : Matches accepts first found) :
      Matches accepts (.either first second) found
  | second
      {first second : Expression α}
      {found : List β}
      (chosen : Matches accepts second found) :
      Matches accepts (.either first second) found
  | absent
      {body : Expression α} :
      Matches accepts (.optional body) []
  | present
      {body : Expression α}
      {found : List β}
      (given : Matches accepts body found) :
      Matches accepts (.optional body) found
  | done
      {body : Expression α} :
      Matches accepts (.star body) []
  | again
      {body : Expression α}
      {found others : List β}
      (once : Matches accepts body found)
      (more : Matches accepts (.star body) others) :
      Matches accepts (.star body) (found ++ others)
  | plus
      {body : Expression α}
      {found others : List β}
      (once : Matches accepts body found)
      (more : Matches accepts (.star body) others) :
      Matches accepts (.plus body) (found ++ others)

/-- Whether a place of a regular expression takes a character. -/
def CharClass.accepts : CharClass → Char → Bool
  | .only expected, c => c == expected
  | .digit, c => isDigit c
  | .any, c => c != '\n'
  | .set negated ranges, c =>
      negated != ranges.any fun (low, high) => low ≤ c && c ≤ high

/-- The texts that a terminal stands for. -/
def Terminal.Matches : Terminal → List Char → Prop
  | .listed texts, text => String.ofList text ∈ texts
  | .regex pattern, text =>
      pattern.Matches (fun place c => place.accepts c = true) text

/-- A tree of rules over the texts of terminals. -/
inductive Tree where
  | leaf (symbol : Symbol) (text : List Char)
  | node (rule : String) (children : List Tree)

mutual

/-- The texts at the leaves of a tree, from left to right. -/
def Tree.leaves : Tree → List (List Char)
  | .leaf _ text => [text]
  | .node _ children => leavesOf children

/-- The texts at the leaves of trees that stand side by side. -/
def leavesOf : List Tree → List (List Char)
  | [] => []
  | tree :: trees => tree.leaves ++ leavesOf trees

end

/-- The derivations from a symbol. -/
inductive Derives (rules : Rules) : Symbol → Tree → Prop where
  | literal (text : String) :
      Derives rules (.literal text) (.leaf (.literal text) text.toList)
  | terminal
      {name : String}
      {terminal : Terminal}
      {text : List Char}
      (listed : (name, terminal) ∈ rules.terminals)
      (matched : terminal.Matches text) :
      Derives rules (.terminal name) (.leaf (.terminal name) text)
  | rule
      {name : String}
      {body : Expression Symbol}
      {children : List Tree}
      (listed : (name, body) ∈ rules.rules)
      (matched : body.Matches (Derives rules) children) :
      Derives rules (.rule name) (.node name children)

/-- The characters that may stand between terminals. -/
def isIgnored (c : Char) : Bool :=
  c == ' ' || c == '\t' || c == '\x0c' || c == '\r' || c == '\n'

/-- A text made of texts with ignored characters around each. -/
inductive Spread : List (List Char) → List Char → Prop where
  | nil
      {blanks : List Char}
      (ignored : ∀ c ∈ blanks, isIgnored c = true) :
      Spread [] blanks
  | cons
      {blanks leaf rest : List Char}
      {leaves : List (List Char)}
      (ignored : ∀ c ∈ blanks, isIgnored c = true)
      (more : Spread leaves rest) :
      Spread (leaf :: leaves) (blanks ++ (leaf ++ rest))

/-- The leaf of a name. -/
def Tree.name (name : String) : Tree :=
  .leaf (.terminal "IDENTIFIER") name.toList

/-- The leaf of a text that a rule quotes. -/
def Tree.mark (text : String) : Tree :=
  .leaf (.literal text) text.toList

@[simp] theorem Tree.leaves_leaf
    (symbol : Symbol)
    (text : List Char) :
    (Tree.leaf symbol text).leaves = [text] := by
  rw [Tree.leaves]

@[simp] theorem Tree.leaves_node
    (rule : String)
    (children : List Tree) :
    (Tree.node rule children).leaves = leavesOf children := by
  rw [Tree.leaves]

@[simp] theorem leavesOf_nil :
    leavesOf [] = [] := by
  rw [leavesOf]

@[simp] theorem leavesOf_cons
    (tree : Tree)
    (trees : List Tree) :
    leavesOf (tree :: trees) = tree.leaves ++ leavesOf trees := by
  rw [leavesOf]

@[simp] theorem Tree.leaves_name (name : String) :
    (Tree.name name).leaves = [name.toList] :=
  Tree.leaves_leaf _ _

@[simp] theorem Tree.leaves_mark (text : String) :
    (Tree.mark text).leaves = [text.toList] :=
  Tree.leaves_leaf _ _

/-- The value that a derivation shows. -/
inductive ShowsValue : Tree → Value → Prop where
  | number
      {text : List Char}
      {value : Binary64}
      (written : IsLexeme text (.number value)) :
      ShowsValue (.node "value" [.leaf (.terminal "NUMBER") text])
        (.number value)
  | string
      {text : List Char}
      {content : String}
      (written : IsLexeme text (.string content)) :
      ShowsValue (.node "value" [.leaf (.terminal "STRING") text])
        (.string content)
  | bool (value : Bool) :
      ShowsValue
        (.node "value"
          [.leaf (.terminal "BOOL")
            (if value then "true" else "false").toList])
        (.bool value)
  | identifier (name : String) :
      ShowsValue (.node "value" [.name name]) (.identifier name)
  | function (name : String) :
      ShowsValue
        (.node "value" [.node "function_ref" [.mark "@", .name name]])
        (.function name)

/-- The argument that a derivation shows. -/
inductive ShowsArgument : Tree → Argument → Prop where
  | named
      (name : String)
      {tree : Tree}
      {value : Value}
      (shown : ShowsValue tree value) :
      ShowsArgument (.node "arg" [.name name, .mark "=", tree])
        (.named name value)
  | positional
      {tree : Tree}
      {value : Value}
      (shown : ShowsValue tree value) :
      ShowsArgument (.node "arg" [tree]) (.positional value)

/-- What trees side by side show, with marks between each two. -/
inductive ShowsAll (shows : Tree → α → Prop) (mark : Tree) :
    List Tree → List α → Prop where
  | one
      {tree : Tree}
      {item : α}
      (shown : shows tree item) :
      ShowsAll shows mark [tree] [item]
  | more
      {tree : Tree}
      {trees : List Tree}
      {item : α}
      {items : List α}
      (shown : shows tree item)
      (others : ShowsAll shows mark trees items) :
      ShowsAll shows mark (tree :: mark :: trees) (item :: items)

/-- The call that a derivation shows. -/
inductive ShowsCall : Tree → Call → Prop where
  | bare (name : String) :
      ShowsCall (.node "call" [.name name, .mark "(", .mark ")"]) ⟨name, []⟩
  | given
      (name : String)
      {trees : List Tree}
      {arguments : List Argument}
      (shown :
        ShowsAll ShowsArgument (.leaf (.terminal "COMMA") [',']) trees
          arguments) :
      ShowsCall
        (.node "call" [.name name, .mark "(", .node "args" trees, .mark ")"])
        ⟨name, arguments⟩

/-- The chain that a derivation shows. -/
inductive ShowsChain : Tree → Chain → Prop where
  | calls
      {trees : List Tree}
      {calls : List Call}
      (shown :
        ShowsAll ShowsCall (.leaf (.terminal "DOT") ['.']) trees calls) :
      ShowsChain (.node "start" [.node "call_chain" trees]) ⟨calls⟩

end Grammar

end VerbChain
