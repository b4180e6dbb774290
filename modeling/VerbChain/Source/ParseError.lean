import VerbChain.Text.Position

namespace VerbChain

/-!
# Errors of reading a program

A program is rejected while its characters are split into tokens, while its
tokens are put together, or by a parser from outside that answers for itself.
-/

/-- The stage that rejected a program. -/
inductive ParseErrorKind where
  | lexical
  | syntactic
  | backend
  deriving Repr, DecidableEq

/-- The stage as messages name it. -/
def ParseErrorKind.describe : ParseErrorKind → String
  | .lexical => "lex error"
  | .syntactic => "syntax error"
  | .backend => "backend error"

/-- Why a program was rejected and where. -/
structure ParseError where
  kind : ParseErrorKind
  text : String
  position : Position
  deriving Repr, DecidableEq

namespace ParseError

/-- A parser from outside rejects a program without naming a place. -/
def ofBackend (text : String) : ParseError :=
  ⟨.backend, text, ⟨0, 0⟩⟩

/-- The message of an error: its place, its stage and its text. -/
def message (error : ParseError) : String :=
  "[" ++ toString error.position.line ++ ":" ++
    toString error.position.column ++ "] " ++ error.kind.describe ++ ": " ++
    error.text

end ParseError

end VerbChain
