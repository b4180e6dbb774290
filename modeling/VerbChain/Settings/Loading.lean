import VerbChain.Files.Access
import VerbChain.Settings.Basic
import VerbChain.Yaml.Record

namespace VerbChain

/-!
# Loading settings

Settings are stored in YAML.  A part that is not stored has its standard value,
and a part nobody knows says nothing.
-/

/-- Why settings could not be loaded. -/
inductive SettingsError where
  | file (cause : FileError)
  /-- The file does not hold settings. -/
  | malformed
  deriving Repr, DecidableEq

/-- The message of an error. -/
def SettingsError.message : SettingsError → String
  | .file cause => "failed to read config: " ++ cause.message
  | .malformed => "invalid config: not the settings of an engine"

namespace Settings

/-- Read a part of a record, or take its standard value. -/
def part (parts : List (String × YamlNode)) (name : String) (standard : α)
    (read : YamlNode → YamlReader α) : YamlReader α :=
  match parts.lookup name with
  | none => return standard
  | some node => read node

/-- Read the name of a print format. -/
def formatOfNode (node : YamlNode) : YamlReader PrintFormat := do
  match PrintFormat.ofName? (← YamlReader.choice node) with
  | some format => return format
  | none => failure

/-- Read settings from a node of a YAML text. -/
def ofNode (room : Nat) (node : YamlNode) : YamlReader Settings := do
  let parts ←
    YamlReader.record ["stream_capacity", "log_filter", "print_format"] room
      node
  return {
    streamCapacity :=
      ← part parts "stream_capacity" standard.streamCapacity
        (YamlReader.optional YamlReader.natural)
    logFilter :=
      ← part parts "log_filter" standard.logFilter YamlReader.text
    printFormat :=
      ← part parts "print_format" standard.printFormat formatOfNode }

/-- Read settings from the text of a file. -/
def ofText? (text : String) : Option Settings :=
  YamlReader.decode? ofNode text

/-- Settings from what a file holds, or the error that there is no text. -/
def ofFile : Except FileError String → Except SettingsError Settings
  | .error error => .error (.file error)
  | .ok text =>
      match ofText? text with
      | some settings => .ok settings
      | none => .error .malformed

/-- Load settings from a file. -/
def load [Monad m] [FileAccess m] (path : String) :
    m (Except SettingsError Settings) := do
  return ofFile (← FileAccess.readFile path)

/-- Where a home folder keeps settings. -/
def homePath : String :=
  ".grammar-school/config.yaml"

/-- Settings from what a home folder holds, if it holds any. -/
def ofHome? (content : Except FileError String) : Option Settings :=
  (ofFile content).toOption

end Settings

end VerbChain
