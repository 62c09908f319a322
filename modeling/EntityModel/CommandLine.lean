import EntityModel.Command
import EntityModel.CommandLine.Options
import EntityModel.Settings.Reader
import EntityModel.Sources.Directory

/-!
# The command line

Options of the program, then the name of a command, then the arguments and options of that command. Main
definitions: `Arguments.parse`, `Arguments.settings`, `Arguments.run`.
-/

namespace EntityModel

/-! ### The program -/

inductive ProgramOption where
  | root
  | format
  | config
  | app
  | module
  | identifierDomain
  | freeAliasDomain
  | persistedTarget
  | clientTarget
deriving DecidableEq

namespace ProgramOption

def longNames : List (String × Flag ProgramOption) :=
  [("root", .value root), ("format", .value format), ("config", .value config),
    ("app", .value app), ("module", .value module),
    ("identifier-domain", .value identifierDomain), ("free-alias-domain", .value freeAliasDomain),
    ("persisted-target", .value persistedTarget), ("client-target", .value clientTarget),
    ("help", .help), ("version", .version)]

def letters : List (Char × Flag ProgramOption) :=
  [('r', .value root), ('c', .value config), ('a', .value app), ('m', .value module),
    ('h', .help), ('V', .version)]

/-- Whether an option takes a value: paths are not empty, and formats are known by name. -/
def accepts : ProgramOption → String → Bool
  | root, value => !value.isEmpty
  | config, value => !value.isEmpty
  | format, value => value == "table" || value == "json"
  | _, _ => true

/-- The options of the program. Only modules may be several. -/
def options : OptionSet ProgramOption where
  long? name := longNames.lookup name
  short? letter := letters.lookup letter
  repeats option := option == .module
  accepts := accepts

end ProgramOption

/-! ### Commands -/

inductive CommandName where
  | check
  | classes
  | describe
  | rows
  | domains
  | project
deriving DecidableEq

namespace CommandName

def byName : List (String × CommandName) :=
  [("check", check), ("classes", classes), ("describe", describe), ("rows", rows),
    ("domains", domains), ("project", project)]

/-- Whether a word can stand where a command is expected. Help is a command too. -/
def isKnown (word : String) : Bool := word == "help" || (byName.lookup word).isSome

/-- How many arguments a command takes besides its options. -/
def arity : CommandName → Nat
  | describe => 1
  | rows => 1
  | project => 1
  | _ => 0

/-- The options of a command: all explain themselves, and a projection has a target. -/
def options (command : CommandName) : OptionSet Unit where
  long? name :=
    if name == "help" then some .help
    else if name == "target" && command == .project then some (.value ())
    else none
  short? letter :=
    if letter == 'h' then some .help
    else if letter == 't' && command == .project then some (.value ())
    else none
  repeats _ := false
  accepts _ _ := true

/-- Reads an argument, after some others. One too many is refused before the last option is looked at. -/
def readArgument (command : CommandName) (given : Given Unit) (words : List String)
    (word : String) : Except UsageError (Given Unit × List String) :=
  if words.length < command.arity then do
    return (← given.settle command.options, words ++ [word])
  else .error .unknownArgument

/-- The words after two dashes are all arguments. -/
def readRest (command : CommandName) (given : Given Unit) (words : List String) :
    List String → Except UsageError (Given Unit × List String)
  | [] => do return (← given.settle command.options, words)
  | word :: rest => do
    let (given, words) ← command.readArgument given words word
    command.readRest given words rest

/-- Reads the options and arguments of a command, after some of them. -/
def read (command : CommandName) (given : Given Unit) (words : List String) :
    List String → Except UsageError (Given Unit × List String)
  | [] => do return (← given.settle command.options, words)
  | text :: rest => match Word.ofText text with
    | .escape => command.readRest given words rest
    | .long name value => do
      command.read (← given.readLong command.options name value) words rest
    | .short letter letters => do
      command.read (← given.readShort command.options letter letters) words rest
    | .plain value =>
      if given.needsValue then command.read (given.take value) words rest
      else do
        let (given, words) ← command.readArgument given words value
        command.read given words rest

def complete (command : CommandName) (given : Given Unit) (words : List String) :
    Except UsageError Command :=
  match command, words, given.values.lookup () with
  | check, _, _ => .ok .check
  | classes, _, _ => .ok .classes
  | domains, _, _ => .ok .domains
  | describe, klass :: _, _ => .ok (.describe klass)
  | rows, klass :: _, _ => .ok (.rows klass)
  | project, subject :: _, some target => .ok (.project subject target)
  | _, _, _ => .error .missingArgument

/-- Reads a command from the words after its name. -/
def parse (command : CommandName) (rest : List String) : Except UsageError Command := do
  let (given, words) ← command.read {} [] rest
  command.complete given words

end CommandName

/-! ### Arguments -/

structure Arguments where
  root : String := "./model"
  format : ReportFormat := .table
  configFile : Option String := none
  app : Option String := none
  modules : List String := []
  identifierDomain : Option String := none
  freeAliasDomain : Option String := none
  persistedTarget : Option String := none
  clientTarget : Option String := none
  command : Command
deriving DecidableEq

namespace Arguments

def ofGiven (given : Given ProgramOption) (command : Command) : Arguments :=
  let value? (option : ProgramOption) := given.values.lookup option
  { root := (value? .root).getD "./model"
    format := if value? .format = some "json" then .json else .table
    configFile := value? .config
    app := value? .app
    modules := (given.values.filter (·.1 == .module)).map Prod.snd
    identifierDomain := value? .identifierDomain
    freeAliasDomain := value? .freeAliasDomain
    persistedTarget := value? .persistedTarget
    clientTarget := value? .clientTarget
    command }

/-- Where the words end before a command is named. -/
def endError (given : Given ProgramOption) : Except UsageError Arguments := do
  let given ← given.settle ProgramOption.options
  .error (if given.values.isEmpty then .nothingGiven else .missingCommand)

/-- Two dashes do not lead to a command. -/
def escapeError (word : String) : UsageError :=
  if CommandName.isKnown word then .unknownArgument else .unknownCommand

/-- Help is given on at most one command. -/
def helpError : List String → UsageError
  | [] => .help
  | [word] => if CommandName.isKnown word then .help else .unknownCommand
  | _ => .unknownCommand

/-- Reads the options of the program up to a command, and the command. The command is read, and a word that
names none is refused, before the value of the last option is looked at. -/
def read (given : Given ProgramOption) : List String → Except UsageError Arguments
  | [] => endError given
  | text :: rest => match Word.ofText text with
    | .escape => match rest with
      | [] => endError given
      | word :: _ => .error (escapeError word)
    | .long name value => do read (← given.readLong ProgramOption.options name value) rest
    | .short letter letters => do
      read (← given.readShort ProgramOption.options letter letters) rest
    | .plain value =>
      if given.needsValue then read (given.take value) rest
      else if value = "help" then .error (helpError rest)
      else match CommandName.byName.lookup value with
        | some name => do
          let command ← name.parse rest
          return ofGiven (← given.settle ProgramOption.options) command
        | none => .error .unknownCommand

def parse (words : List String) : Except UsageError Arguments := read {} words

/-- Settings with those of the command line in place of their own. Modules are added. -/
def override (arguments : Arguments) (settings : Settings) : Settings :=
  { settings with
    appName := arguments.app.or settings.appName
    modules := settings.modules ++ arguments.modules
    identifierDomain := arguments.identifierDomain.getD settings.identifierDomain
    freeAliasDomain := arguments.freeAliasDomain.getD settings.freeAliasDomain
    persistedTarget := arguments.persistedTarget.getD settings.persistedTarget
    clientTarget := arguments.clientTarget.getD settings.clientTarget }

/-- The settings of a run: those of the configuration file, if one is named, and of the options. -/
def settings (arguments : Arguments) (refusal : String → String) (tree : FileTree) : Except Fault Settings := do
  let read ← match arguments.configFile with
    | some path => (tree.readText path).bind (Settings.read refusal)
    | none => .ok {}
  let settings := arguments.override read
  settings.validate
  return settings

def run (arguments : Arguments) (refusal : String → String) (tree : FileTree) :
    Except CommandError CommandOutput :=
  match (arguments.settings refusal tree).bind Store.create with
  | .error fault => .error (.fault fault)
  | .ok store =>
    (arguments.command.execute arguments.format store (.ofDirectory tree arguments.root)).2

end Arguments

end EntityModel
