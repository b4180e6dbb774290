namespace VerbChain

/-!
# What the command line asks for

Arguments are read in order.  A flag is given by its name behind two dashes or
by its letter behind one; its value is attached to it or is the next argument.
The first word is the name of a command.  Some flags may stand on both sides of
it, and what stands behind it wins.
-/

/-- The languages that can be chosen. -/
inductive Language where
  | music
  | functional
  | tasks
  deriving Repr, DecidableEq

/-- The language of a name. -/
def Language.ofName? (name : String) : Option Language :=
  [("music", music), ("functional", functional), ("tasks", tasks)].lookup name

/-- How a grammar is shown. -/
inductive GrammarForm where
  | whole
  /-- Without directives and blank lines. -/
  | rules
  /-- As the request of a tool with a name. -/
  | tool (name : String)
  deriving Repr, DecidableEq

/-- What is to be done; without a source file the input is read. -/
inductive Command where
  | compile (source out : Option String)
  | run (source : Option String)
  | runPlan (path : String)
  | stream (source : Option String)
  | parse (source : Option String)
  | grammar (form : GrammarForm)
  | verbs
  deriving Repr, DecidableEq

/-- A command and what holds for all of them. -/
structure Invocation where
  /-- The file of the settings. -/
  settings : Option String
  logFilter : Option String
  language : Language
  command : Command
  deriving Repr, DecidableEq

/-- What the command line asks for. -/
inductive Request where
  | invoke (invocation : Invocation)
  | version
  | help
  /-- Nothing that can be done. -/
  | misuse
  deriving Repr, DecidableEq

/-- What a flag is for. -/
inductive FlagUse where
  /-- It takes any value. -/
  | text
  /-- It takes a value that is not empty. -/
  | path
  /-- It takes the name of a language. -/
  | language
  /-- It takes no value. -/
  | bare
  /-- It asks for something else than a command. -/
  | request (request : Request)
  deriving Repr, DecidableEq

namespace FlagUse

/-- Whether a flag takes this value. -/
def accepts (value : String) : FlagUse → Bool
  | .path => value != ""
  | .language => (Language.ofName? value).isSome
  | _ => true

end FlagUse

/-- A flag that a command knows. -/
structure Flag where
  name : String
  letter : Option Char
  use : FlagUse
  deriving Repr, DecidableEq

/-- An argument as it is written. -/
inductive WrittenArgument where
  | word (text : String)
  /-- A flag by its name, with the value behind an equals sign. -/
  | named (name : String) (value : Option String)
  /-- A flag by its letter, with the value behind it. -/
  | lettered (letter : Char) (value : Option String)
  /-- The two dashes behind which there are words only. -/
  | wordsOnly
  deriving Repr, DecidableEq

namespace WrittenArgument

/-- The value behind an equals sign. -/
def afterEquals : List Char → Option String
  | '=' :: value => some (String.ofList value)
  | _ => none

/-- Tell what an argument is. -/
def ofText (argument : String) : WrittenArgument :=
  match argument.toList with
  | ['-', '-'] => .wordsOnly
  | '-' :: '-' :: text =>
      .named (String.ofList (text.takeWhile (· != '=')))
        (afterEquals (text.dropWhile (· != '=')))
  | ['-', letter] => .lettered letter none
  | '-' :: letter :: text =>
      .lettered letter
        (some ((afterEquals text).getD (String.ofList text)))
  | _ => .word argument

/-- Whether an argument is a word. -/
def isWord (argument : String) : Bool :=
  match ofText argument with
  | .word _ => true
  | _ => false

end WrittenArgument

/-- What an argument says to those who know some flags. -/
inductive ArgumentMeaning where
  | word (text : String)
  /-- A flag and its value; one that takes none has an empty one. -/
  | flag (flag : Flag) (value : String)
  /-- A flag whose value is the next argument. -/
  | opening (flag : Flag)
  /-- Something else than a command is asked for. -/
  | asked (request : Request)
  | wordsOnly
  deriving Repr, DecidableEq

namespace ArgumentMeaning

/-- What a flag says that is given with or without a value. -/
def ofFlag (flag : Flag) (value : Option String) : ArgumentMeaning :=
  match flag.use, value with
  | .request request, none => .asked request
  | .request _, some _ => .asked .misuse
  | .bare, none => .flag flag ""
  | .bare, some _ => .asked .misuse
  | _, some value => .flag flag value
  | _, none => .opening flag

/-- What a letter says; one that asks for something ends the argument. -/
def ofLetter (flag : Flag) (value : Option String) : ArgumentMeaning :=
  match flag.use with
  | .request request => .asked request
  | _ => ofFlag flag value

/-- What an argument says. -/
def ofText (flags : List Flag) (argument : String) : ArgumentMeaning :=
  match WrittenArgument.ofText argument with
  | .word text => .word text
  | .wordsOnly => .wordsOnly
  | .named name value =>
      match flags.find? fun known => known.name == name with
      | some found => ofFlag found value
      | none => .asked .misuse
  | .lettered letter value =>
      match flags.find? fun known => known.letter == some letter with
      | some found => ofLetter found value
      | none => .asked .misuse

end ArgumentMeaning

/-- The flags given, by name. -/
abbrev GivenFlags := List (String × String)

/-- What reading arguments came to. -/
inductive ArgumentReading where
  /-- There are no more arguments. -/
  | ended (given : GivenFlags)
  /-- A word was met. -/
  | met (word : String) (rest : List String) (given : GivenFlags)
  /-- Something else than a command is asked for. -/
  | asked (request : Request)
  deriving Repr, DecidableEq

namespace ArgumentReading

/-- The flags with one more, unless it is refused or was given before. -/
def give? (flag : Flag) (value : String) (given : GivenFlags) :
    Option GivenFlags :=
  if flag.use.accepts value ∧ (given.lookup flag.name).isNone then
    some ((flag.name, value) :: given)
  else none

/-- Read the flags in front of the first word. -/
def ofArguments (flags : List Flag) :
    List String → GivenFlags → ArgumentReading
  | [], given => .ended given
  | argument :: rest, given =>
      match ArgumentMeaning.ofText flags argument with
      | .word text => .met text rest given
      | .asked request => .asked request
      | .wordsOnly => if rest = [] then .ended given else .asked .misuse
      | .flag flag value =>
          match give? flag value given with
          | some next => ofArguments flags rest next
          | none => .asked .misuse
      | .opening flag =>
          match rest with
          | [] => .asked .misuse
          | value :: after =>
              if WrittenArgument.isWord value then
                match give? flag value given with
                | some next => ofArguments flags after next
                | none => .asked .misuse
              else .asked .misuse

end ArgumentReading

namespace Request

/-- The flags that may stand on both sides of the command. -/
def globalFlags : List Flag :=
  [⟨"config", none, .path⟩, ⟨"log", none, .text⟩, ⟨"dsl", none, .language⟩,
    ⟨"help", some 'h', .request .help⟩]

/-- The flags in front of the command. -/
def outerFlags : List Flag :=
  globalFlags ++ [⟨"version", some 'V', .request .version⟩]

/-- The flag that names the file of a source. -/
def sourceFlag : Flag := ⟨"file", some 'f', .path⟩

/-- The flags of its own that each command knows. -/
def commandFlags : List (String × List Flag) :=
  [("compile", [sourceFlag, ⟨"out", some 'o', .path⟩]),
    ("run", [sourceFlag, ⟨"plan", none, .path⟩]),
    ("stream", [sourceFlag]),
    ("parse", [sourceFlag]),
    ("grammar", [⟨"cfg", none, .bare⟩, ⟨"tool", none, .text⟩]),
    ("verbs", [])]

/-- The command of a name with its flags. -/
def command? (name : String) (given : GivenFlags) : Option Command :=
  let source := given.lookup "file"
  match name with
  | "compile" => some (.compile source (given.lookup "out"))
  | "run" =>
      match source, given.lookup "plan" with
      | some _, some _ => none
      | none, some plan => some (.runPlan plan)
      | _, none => some (.run source)
  | "stream" => some (.stream source)
  | "parse" => some (.parse source)
  | "grammar" =>
      match given.lookup "tool", given.lookup "cfg" with
      | some tool, _ => some (.grammar (.tool tool))
      | none, some _ => some (.grammar .rules)
      | none, none => some (.grammar .whole)
  | "verbs" => some .verbs
  | _ => none

/-- The invocation of a command with flags, the later ones first. -/
def ofFlags (name : String) (given : GivenFlags) : Request :=
  match command? name given with
  | none => .misuse
  | some command =>
      .invoke
        { settings := given.lookup "config"
          logFilter := given.lookup "log"
          language :=
            ((given.lookup "dsl").bind Language.ofName?).getD .music
          command := command }

/-- Whether words name a command to be explained, or none. -/
def isTopic : List String → Bool
  | [] => true
  | [name] => name == "help" || (commandFlags.lookup name).isSome
  | _ => false

/-- What arguments ask for. -/
def ofArguments (arguments : List String) : Request :=
  match ArgumentReading.ofArguments outerFlags arguments [] with
  | .asked request => request
  | .ended _ => .misuse
  | .met name rest outer =>
      if name = "help" then if isTopic rest then .help else .misuse
      else
        match commandFlags.lookup name with
        | none => .misuse
        | some flags =>
            match ArgumentReading.ofArguments (globalFlags ++ flags) rest [] with
            | .asked request => request
            | .met _ _ _ => .misuse
            | .ended inner => ofFlags name (inner ++ outer)

end Request

end VerbChain
