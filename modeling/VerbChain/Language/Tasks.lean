import VerbChain.Evaluation.Handler

namespace VerbChain.Tasks

/-!
# A language that keeps a list of tasks

Every verb acts at once: it writes one entry at the end of a log, or fails and
writes nothing.
-/

/-- The entries written so far. -/
abbrev Log := List String

/-- The text under a key or else the first positional one. -/
def textOrFirst (key : String) (bag : Bag) : Except ArgumentError String := do
  match ← bag.optionalText key with
  | some text => return text
  | none => bag.text (positionalKey 0)

/-- A verb that writes a mark and a text. -/
def entry (mark key : String) : DirectHandler Log :=
  Handler.acting fun bag log =>
    match textOrFirst key bag with
    | .ok text => .ok (log ++ [mark ++ ":" ++ text])
    | .error error => .error (.argument error)

/-- Write the name of a functional verb and the verbs it refers to. -/
def functionalEntry (call : FunctionalCall) (world : World Log) :
    Except HandlerError Unit × World Log :=
  let line := call.verb.name ++ ":" ++ ",".intercalate call.functions
  (.ok (), { world with state := world.state ++ [line] })

/-- The verbs of the language, the functional ones among them. -/
def registry : Registry Log Unit Unit :=
  Registry.withFunctional
    (.ofList
      [("task", entry "task" "name"),
        ("done", entry "done" "name"),
        ("note", entry "note" "text")])
    (Registry.functionalMethod functionalEntry)

end VerbChain.Tasks
