import VerbChain.Files.Access
import VerbChain.Files.Path

namespace VerbChain

/-!
# Files as a value

A tree of folders and files is kept as what stands at each place, a place being
the names on the way to it.  A path is followed step by step, and everything on
the way has to be a folder.
-/

/-- What stands at a place. -/
inductive FileEntry where
  | folder
  | file (content : String)
  deriving Repr, DecidableEq

/-- Folders and files, the latest entry of a place first. -/
structure FileTree where
  entries : List (List String × FileEntry)
  deriving Repr, DecidableEq

namespace FileTree

/-- A folder without anything in it. -/
def empty : FileTree := ⟨[]⟩

/-- What stands at a place; the first place is always a folder. -/
def find? (tree : FileTree) (place : List String) : Option FileEntry :=
  if place = [] then some .folder else tree.entries.lookup place

/-- The tree with an entry at a place. -/
def put (tree : FileTree) (place : List String) (entry : FileEntry) :
    FileTree :=
  ⟨(place, entry) :: tree.entries⟩

/-- The place one step further on. -/
def step (place : List String) (name : String) : List String :=
  if name = "." then place
  else if name = ".." then place.dropLast
  else place ++ [name]

/-- How many bytes a name may have. -/
def longestName : Nat := 255

/-- The place that steps lead to from a place; all on the way are folders. -/
def follow (tree : FileTree) :
    (place steps : List String) → Except FileError (List String)
  | place, [] => .ok place
  | place, name :: steps =>
      match tree.find? place with
      | some .folder =>
          if longestName < name.utf8ByteSize then .error .nameTooLong
          else tree.follow (step place name) steps
      | some (.file _) => .error .notDirectory
      | none => .error .notFound

/-- An entry is found at its place. -/
theorem find?_put_self
    (tree : FileTree)
    {place : List String}
    (entry : FileEntry)
    (inside : place ≠ []) :
    (tree.put place entry).find? place = some entry := by
  simp [find?, put, inside]

/-- An entry changes nothing at other places. -/
theorem find?_put_of_ne
    (tree : FileTree)
    {place other : List String}
    (entry : FileEntry)
    (different : other ≠ place) :
    (tree.put place entry).find? other = tree.find? other := by
  have unequal : (other == place) = false := by simpa using different
  simp [find?, put, List.lookup_cons, unequal]

/-- A file where no folder was blocks no way that could be followed. -/
theorem follow_put_file
    (tree : FileTree)
    {target : List String}
    (content : String)
    (noFolder : tree.find? target ≠ some .folder)
    (place steps : List String)
    {reached : List String}
    (followed : tree.follow place steps = .ok reached) :
    (tree.put target (.file content)).follow place steps = .ok reached := by
  induction steps generalizing place with
  | nil => exact followed
  | cons name steps step =>
      rw [follow] at followed ⊢
      have different : tree.find? place = some .folder → place ≠ target := by
        intro folder same
        exact noFolder (same ▸ folder)
      cases found : tree.find? place with
      | none => simp [found] at followed
      | some entry =>
          cases entry with
          | file text => simp [found] at followed
          | folder =>
              rw [find?_put_of_ne tree _ (different found), found]
              rw [found] at followed
              by_cases long : longestName < name.utf8ByteSize
              · simp [long] at followed
              · simp only [long, if_false] at followed ⊢
                exact step _ followed

/-- The place that the steps of a path lead to. -/
def reach (tree : FileTree) (steps : List String) :
    Except FileError (List String) :=
  if steps.any fun name => name.toList.contains '\x00' then .error .zeroInPath
  else tree.follow [] steps

/-- The place of a path. -/
def placeOf (tree : FileTree) (path : String) :
    Except FileError (List String) :=
  if path = "" then .error .notFound else tree.reach (Path.steps path)

/-- The text of a file. -/
def read (tree : FileTree) (path : String) : Except FileError String :=
  match tree.placeOf path with
  | .error error => .error error
  | .ok place =>
      match tree.find? place with
      | none => .error .notFound
      | some .folder => .error .isDirectory
      | some (.file content) =>
          if Path.endsWithSlash path then .error .notDirectory
          else .ok content

/-- The tree with a file of a text. -/
def write (tree : FileTree) (path content : String) :
    Except FileError FileTree :=
  match tree.placeOf path with
  | .error error => .error error
  | .ok place =>
      if Path.endsWithSlash path ∨ tree.find? place = some .folder then
        .error .isDirectory
      else .ok (tree.put place (.file content))

/-- What was written to a path is read there. -/
theorem read_of_write
    {tree next : FileTree}
    {path content : String}
    (written : tree.write path content = .ok next) :
    next.read path = .ok content := by
  unfold write at written
  cases placed : tree.placeOf path with
  | error error => simp [placed] at written
  | ok place =>
      simp only [placed] at written
      split at written
      · cases written
      · rename_i free
        obtain ⟨noSlash, noFolder⟩ := not_or.mp free
        cases written
        have inside : place ≠ [] := by
          rintro rfl
          exact noFolder rfl
        have placedAfter :
            (tree.put place (.file content)).placeOf path = .ok place := by
          unfold placeOf at placed ⊢
          split at placed
          · cases placed
          · rename_i named
            rw [if_neg named]
            unfold reach at placed ⊢
            split at placed
            · cases placed
            · rename_i whole
              rw [if_neg whole]
              exact follow_put_file tree content noFolder _ _ placed
        simp [read, placedAfter, find?_put_self tree _ inside, noSlash]

/-- The tree with a folder where nothing stood. -/
def makeFolder (tree : FileTree) (steps : List String) :
    Except FileError FileTree :=
  match tree.reach steps with
  | .error error => .error error
  | .ok place =>
      match tree.find? place with
      | none => .ok (tree.put place .folder)
      | some _ => .error .alreadyExists

/-- Whether steps lead to a folder. -/
def hasFolder (tree : FileTree) (steps : List String) : Bool :=
  match tree.reach steps with
  | .error _ => false
  | .ok place => tree.find? place == some .folder

/-- The tree with a folder where there was none. -/
def ensureFolder (tree : FileTree) (steps : List String) :
    Except FileError FileTree :=
  if tree.hasFolder steps then .ok tree else tree.makeFolder steps

/-- Keep the answer and change the state where there is a new one. -/
def settle (tree : FileTree) :
    Except FileError FileTree → Except FileError Unit × FileTree
  | .ok next => (.ok (), next)
  | .error error => (.error error, tree)

/--
Make the folder of steps, the last step first, and the folders above it if it
cannot be made without them.  Those that were made stay when one fails.
-/
def makeFromLast (tree : FileTree) :
    List String → Except FileError Unit × FileTree
  | [] => (.ok (), tree)
  | last :: above =>
      let steps := (last :: above).reverse
      match tree.ensureFolder steps with
      | .error .notFound =>
          match tree.makeFromLast above with
          | (.ok (), made) => made.settle (made.ensureFolder steps)
          | failed => failed
      | answer => tree.settle answer

/-- Make the folders above a path. -/
def makeFolders (tree : FileTree) (path : String) :
    Except FileError Unit × FileTree :=
  tree.makeFromLast (Path.names path).dropLast.reverse

/-- The tree of files with their paths. -/
def ofList (files : List (String × String)) : FileTree :=
  files.foldl
    (fun tree (path, content) =>
      match tree.makeFolders path with
      | (.ok (), made) => made.put (Path.names path) (.file content)
      | (.error _, _) => tree)
    empty

/-- Files as a value are read and written as a state. -/
instance : FileAccess (StateM FileTree) where
  readFile path tree := (tree.read path, tree)
  makeFolders path tree := tree.makeFolders path
  writeFile path content tree := tree.settle (tree.write path content)

end FileTree

end VerbChain
