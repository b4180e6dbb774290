namespace VerbChain

/-!
# Positions in a text

Lines and columns are counted from one.  Only a line feed starts a line, and
every other character takes one column.
-/

/-- A place in a text. -/
structure Position where
  line : Nat
  column : Nat
  deriving Repr, DecidableEq

namespace Position

/-- The place of the first character. -/
def start : Position := ⟨1, 1⟩

/-- The place after one character. -/
def step (position : Position) (c : Char) : Position :=
  if c = '\n' then ⟨position.line + 1, 1⟩
  else ⟨position.line, position.column + 1⟩

/-- The place after a run of characters. -/
def after (position : Position) (text : List Char) : Position :=
  text.foldl step position

@[simp] theorem after_nil (position : Position) :
    position.after [] = position :=
  rfl

@[simp] theorem after_cons (position : Position) (c : Char)
    (text : List Char) :
    position.after (c :: text) = (position.step c).after text :=
  rfl

/-- Two runs of characters advance a place one after the other. -/
theorem after_append (position : Position) (first second : List Char) :
    position.after (first ++ second) =
      (position.after first).after second :=
  List.foldl_append

end Position

end VerbChain
