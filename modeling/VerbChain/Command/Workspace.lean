import VerbChain.Command.Report
import VerbChain.Files.Tree
import VerbChain.Settings.Loading

namespace VerbChain

/-!
# Running commands

A command reads its settings first, then its source, and a plan is written when
it has been compiled.  All it needs is access to files, to a home folder and to
an input; a `Workspace` is all of these as a value.
-/

/-- What commands need of their surroundings. -/
class Surroundings (m : Type → Type) extends FileAccess m where
  /-- The whole input. -/
  readInput : m (Except FileError String)
  /-- The text of a file in the home folder. -/
  readHome : String → m (Except FileError String)

/-- Files, a home folder and an input. -/
structure Workspace where
  files : FileTree
  home : FileTree
  input : String
  deriving Repr, DecidableEq

namespace Workspace

/-- Change the files of a workspace. -/
def onFiles (change : StateM FileTree α) : StateM Workspace α :=
  fun workspace =>
    let (answer, files) := change.run workspace.files
    (answer, { workspace with files := files })

/-- The parts of a workspace are what a command is surrounded by. -/
instance : Surroundings (StateM Workspace) where
  readFile path := onFiles (FileAccess.readFile path)
  makeFolders path := onFiles (FileAccess.makeFolders path)
  writeFile path content := onFiles (FileAccess.writeFile path content)
  readInput workspace := (.ok workspace.input, workspace)
  readHome path workspace := (workspace.home.read path, workspace)

end Workspace

namespace Invocation

variable [Monad m] [Surroundings m]

/-- Read a source: a file if one is named, and otherwise the input. -/
def readSource : Option String → m (Except FileError String)
  | some path => FileAccess.readFile path
  | none => Surroundings.readInput

/-- The report on a source, or on the error that there is none. -/
def onSource (source : Option String) (report : String → Report) :
    m Report := do
  match ← readSource source with
  | .ok text => return report text
  | .error error => return .failure "" error.message

/-- Load the settings: those of a named file, or of the home folder if any. -/
def loadSettings : Option String → m (Except SettingsError Settings)
  | some path => Settings.load path
  | none => do
      let found := Settings.ofHome? (← Surroundings.readHome Settings.homePath)
      return .ok (found.getD .standard)

/-- The message after a plan was written. -/
def written (plan : Plan) (path : String) : String :=
  "wrote " ++ toString plan.length ++ " action(s) to " ++ path ++ "\n"

/-- Compile a program and write its plan to a file. -/
def compileTo (engine : PlanningEngine Unit String) (path source : String) :
    m Report := do
  match Report.compiled engine source with
  | .error error => return .failure "" error.message
  | .ok plan =>
      match ← plan.save path with
      | .error error => return .failure "" error.message
      | .ok () => return ⟨0, "", written plan path⟩

/-- Do what is asked in a planning language. -/
def runPlanning (engine : PlanningEngine Unit String) : Command → m Report
  | .compile source none => onSource source (Report.ofCompile engine)
  | .compile source (some path) => do
      match ← readSource source with
      | .error error => return .failure "" error.message
      | .ok text => compileTo engine path text
  | .run source => onSource source (Report.ofRun engine)
  | .runPlan path => do
      match ← Plan.load path with
      | .error error => return .failure "" error.message
      | .ok plan => return Report.ofPlan engine plan
  | .stream source => onSource source (Report.ofStream engine)
  | .parse source => onSource source (Report.ofParse engine)
  | .grammar form => return Report.ofGrammar engine form
  | .verbs => return Report.ofVerbs engine

/-- Do what is asked in the language of tasks, which has no plans. -/
def runTasks (settings : Settings) : Command → m Report
  | .compile _ _ =>
      return .failure "" "compile needs a two-layer DSL (try --dsl music)"
  | .run source => onSource source (Report.ofTasks settings)
  | .runPlan _ =>
      return .failure "" "stored plans need a two-layer DSL (try --dsl music)"
  | .stream source => onSource source (Report.ofTaskStream settings)
  | .parse source =>
      onSource source (Report.ofParse (Report.tasksEngine settings))
  | .grammar form =>
      return Report.ofGrammar (Report.tasksEngine settings) form
  | .verbs => return Report.ofVerbs (Report.tasksEngine settings)

/-- Do what is asked. -/
def run (invocation : Invocation) : m Report := do
  match ← loadSettings invocation.settings with
  | .error error => return .failure "" error.message
  | .ok settings =>
      match invocation.language with
      | .music =>
          runPlanning (Report.printingEngine Music.registry settings)
            invocation.command
      | .functional =>
          runPlanning (Report.printingEngine Arithmetic.registry settings)
            invocation.command
      | .tasks => runTasks settings invocation.command

end Invocation

namespace Request

/-- How the command line is used. -/
def usage : String :=
  Report.lines
    ["Usage: gs [OPTIONS] <COMMAND>",
      "",
      "Commands:",
      "  compile  Compile source into an action plan",
      "  run      Compile and execute source, or execute a stored plan",
      "  stream   Evaluate incrementally, handling each event as it arrives",
      "  parse    Parse source and print the call chain as JSON",
      "  grammar  Print the grammar",
      "  verbs    List registered handler names",
      "",
      "Options:",
      "      --config <CONFIG>  Config file",
      "      --log <LOG>        Log filter, overrides the config file",
      "      --dsl <DSL>        music, functional or tasks",
      "  -h, --help             Print help",
      "  -V, --version          Print version"]

/-- Do what the command line asks for. -/
def run [Monad m] [Surroundings m] : Request → m Report
  | .invoke invocation => invocation.run
  | .version => return .success "gs 0.1.0\n"
  | .help => return .success usage
  | .misuse => return ⟨2, "", usage⟩

end Request

end VerbChain
