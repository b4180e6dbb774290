import VerbChain.Command.Workspace

namespace VerbChain

/-!
# The command line

The surroundings of a real computer, and the program that runs in them.
-/

/-- The cause of an error of the system. -/
def FileError.ofSystem : IO.Error → FileError
  | .noFileOrDirectory _ _ _ => .notFound
  | .alreadyExists _ _ _ => .alreadyExists
  | .inappropriateType _ 20 _ => .notDirectory
  | .inappropriateType _ 21 _ => .isDirectory
  | error => .other (toString error)

/-- The answer of a step that may fail. -/
def answerOf (step : IO α) : IO (Except FileError α) := do
  try
    return .ok (← step)
  catch error =>
    return .error (.ofSystem error)

/-- Make the folder above a path. -/
def makeParent (path : String) : IO Unit := do
  let parent := Path.parent path
  if parent ≠ "" then IO.FS.createDirAll parent

/-- Read a file in the home folder. -/
def readFromHome (path : String) : IO String := do
  match ← IO.getEnv "HOME" with
  | some home => IO.FS.readFile (home ++ "/" ++ path)
  | none => throw (.userError "no home folder")

/-- Read the standard input to its end. -/
def readStandardInput : IO String := do
  (← IO.getStdin).readToEnd

/-- The files and the input of a computer. -/
instance : Surroundings IO where
  readFile path := answerOf (IO.FS.readFile path)
  makeFolders path := answerOf (makeParent path)
  writeFile path content := answerOf (IO.FS.writeFile path content)
  readInput := answerOf readStandardInput
  readHome path := answerOf (readFromHome path)

end VerbChain

/-- Run the program on the arguments it is given. -/
def main (arguments : List String) : IO UInt32 := do
  let report : VerbChain.Report ← (VerbChain.Request.ofArguments arguments).run
  IO.print report.output
  IO.eprint report.errors
  return report.code.toUInt32
