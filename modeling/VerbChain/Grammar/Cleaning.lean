import VerbChain.Text.Blank
import VerbChain.Text.Lines

namespace VerbChain

/-!
# Cleaning a grammar

Directives, which start with a percent sign, and blank lines say nothing to a
tool that only follows rules.
-/

namespace Grammar

/-- Whether a line is a rule or part of one. -/
def isRule (line : List Char) : Bool :=
  let trimmed := trimBlanks line
  !trimmed.isEmpty && trimmed.head? != some '%'

/-- The lines of a grammar that are neither blank nor directives. -/
def ruleLines (grammar : List Char) : List (List Char) :=
  (textLines grammar).filter isRule

/-- A grammar without directives and blank lines. -/
def clean (grammar : String) : String :=
  String.ofList (joined ['\n'] (ruleLines grammar.toList))

end Grammar

end VerbChain
