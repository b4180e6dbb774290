import VerbChain.Source.Lexeme
import VerbChain.Source.ParseError

namespace VerbChain

/-!
# The tokens of a text

A text is trivia and lexemes in turn.  Its tokens carry the place of their
first character and end with one that stands for the end of the text; the
first place where no lexeme starts is an error.
-/

namespace Tokens

/-- The tokens of a text whose first character stands at a place. -/
def ofText (position : Position) (text : List Char) :
    Except ParseError (List Located) :=
  let here := position.after (splitTrivia false text).1
  match _body : (splitTrivia false text).2 with
  | [] => .ok [⟨.endOfInput, here⟩]
  | c :: rest =>
      match _found : Lexeme.scan c rest with
      | .error fault => .error ⟨.lexical, fault.text, here⟩
      | .ok lexeme =>
          (ofText (here.after lexeme.spelling) lexeme.rest).map
            (⟨lexeme.token, here⟩ :: ·)
  termination_by text.length
  decreasing_by
    have shorter := Lexeme.scan_rest_length_lt _found
    have whole := congrArg List.length (splitTrivia_append false text)
    rw [List.length_append, _body] at whole
    omega

/-- The tokens of a program. -/
def ofSource (source : String) : Except ParseError (List Located) :=
  ofText .start source.toList

end Tokens

end VerbChain
