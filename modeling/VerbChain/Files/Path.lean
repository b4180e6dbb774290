namespace VerbChain

/-!
# Paths

A path is a text of names with slashes between them, and empty names say
nothing.  A single dot is a step that stays where it is, so it only says that
there is a folder.
-/

namespace Path

/-- The texts between the slashes of a text. -/
def split : List Char → List (List Char)
  | [] => [[]]
  | c :: rest =>
      if c = '/' then [] :: split rest
      else
        match split rest with
        | [] => [[c]]
        | name :: names => (c :: name) :: names

/-- The steps of a path. -/
def steps (path : String) : List String :=
  ((split path.toList).map String.ofList).filter (· != "")

/-- The names of a path, its steps that lead somewhere. -/
def names (path : String) : List String :=
  (steps path).filter (· != ".")

/-- Whether a path ends with a slash, so that it can only be a folder's. -/
def endsWithSlash (path : String) : Bool :=
  path.toList.getLast? == some '/'

/-- The path of the folder that a path lies in. -/
def parent (path : String) : String :=
  let above := "/".intercalate (names path).dropLast
  if path.toList.head? = some '/' then "/" ++ above else above

/--
What follows the last dot of a path's last name, unless that dot is the first
character of the name or the name is the way up.
-/
def extension? (path : String) : Option String :=
  match (names path).getLast? with
  | none => none
  | some name =>
      if name = ".." then none
      else
        let reversed := name.toList.reverse
        match reversed.dropWhile fun c => c != '.' with
        | [] => none
        | [_] => none
        | _ => some (String.ofList (reversed.takeWhile (· != '.')).reverse)

/-- A name that starts with its only dot has no extension. -/
example : [extension? "a/p.yaml", extension? ".yaml", extension? "a.b/p",
      extension? "p.yaml.json", extension? "p."] =
    [some "yaml", none, none, some "json", some ""] := by
  decide +kernel

end Path

end VerbChain
