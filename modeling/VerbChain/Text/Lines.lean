namespace VerbChain

/-!
# Lines

A line ends at a line feed, together with one carriage return directly in front
of it.  A text that ends with a line feed has no empty line after it.
-/

/-- The lines of a text. -/
def textLines : List Char → List (List Char)
  | [] => []
  | '\n' :: rest => [] :: textLines rest
  | '\r' :: '\n' :: rest => [] :: textLines rest
  | c :: rest =>
      match textLines rest with
      | [] => [[c]]
      | line :: lines => (c :: line) :: lines

/-- The given texts one after the other, a separator between each two. -/
def joined (separator : List α) : List (List α) → List α
  | [] => []
  | [text] => text
  | text :: next :: texts =>
      text ++ (separator ++ joined separator (next :: texts))

end VerbChain
