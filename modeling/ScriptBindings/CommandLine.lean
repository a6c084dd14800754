import ScriptBindings.Adapter.Sol3
import ScriptBindings.Generation

namespace ScriptBindings.CommandLine

/-- The options of a command as they were given. -/
structure Options where
  database : Option String := none
  config : Option String := none
  output : Option String := none
deriving DecidableEq, Repr

inductive Command where
  | generate (database : String) (config output : Option String)
  | check (database : String) (config : Option String)
  /-- Asks for the help text of the program or of one of its commands. -/
  | help (topic : Option String)
deriving DecidableEq, Repr

/-- An option that takes a value. -/
inductive Setting where
  | database
  | config
  | output
deriving DecidableEq, Repr

def Setting.name : Setting → String
  | .database => "--database"
  | .config => "--config"
  | .output => "--output"

/-- Stores the value of an option, which must not be empty nor be given twice. -/
def Options.store (o : Options) (value : String) : Setting → Option Options
  | .database =>
    if value = "" || o.database.isSome then none else some { o with database := some value }
  | .config => if value = "" || o.config.isSome then none else some { o with config := some value }
  | .output => if value = "" || o.output.isSome then none else some { o with output := some value }

/-- The commands that generate something, by their settings. -/
inductive Verb where
  | generate
  | check
deriving DecidableEq, Repr

def Verb.word : Verb → String
  | .generate => "generate"
  | .check => "check"

def Verb.settings : Verb → List Setting
  | .generate => [.database, .config, .output]
  | .check => [.database, .config]

/-- Arguments that begin with a dash are no values, except the dash alone. -/
def looksLikeOption (argument : String) : Bool :=
  argument.toList.head? == some '-' && argument ≠ "-"

/-- An argument of the form `name=value`. -/
def split (argument : String) : String × Option String :=
  let cs := argument.toList
  if '=' ∈ cs then
    (String.ofList (cs.takeWhile (· ≠ '=')), some (String.ofList (cs.dropWhile (· ≠ '=')).tail))
  else (argument, none)

inductive Outcome where
  | options (o : Options)
  | help

def isShortHelp (argument : String) : Bool :=
  "-h".toList.isPrefixOf argument.toList

/-- Reads the options of a command. The first argument that is wrong or asks for help decides. -/
def readOptions (verb : Verb) : List String → Options → Option Outcome
  | [], o => some (.options o)
  | ["--"], o => some (.options o)
  | argument :: rest, o =>
    if argument = "--help" || isShortHelp argument then some .help
    else
      match verb.settings.find? fun s => s.name = (split argument).1 with
      | none => none
      | some s =>
        match (split argument).2, rest with
        | some value, rest => (o.store value s).bind fun o => readOptions verb rest o
        | none, [] => none
        | none, value :: rest =>
          if looksLikeOption value then none
          else (o.store value s).bind fun o => readOptions verb rest o

def Verb.command (verb : Verb) (o : Options) : Option Command :=
  match verb, o.database with
  | _, none => none
  | .generate, some database => some (.generate database o.config o.output)
  | .check, some database => some (.check database o.config)

def readVerb (verb : Verb) (arguments : List String) : Option Command :=
  match readOptions verb arguments {} with
  | none => none
  | some .help => some (.help (some verb.word))
  | some (.options o) => verb.command o

/-- The words that help can be asked about. -/
def topics : List String := ["generate", "check", "help"]

def readTopic : List String → Option Command
  | [] => some (.help none)
  | [topic] => if topic ∈ topics then some (.help (some topic)) else none
  | _ => none

/-- Reads the arguments of the program; none means that they are wrong. -/
def parse : List String → Option Command
  | [] => none
  | word :: rest =>
    if word = "generate" then readVerb .generate rest
    else if word = "check" then readVerb .check rest
    else if word = "help" then readTopic rest
    else if word = "--help" || isShortHelp word then some (.help none)
    else none

/-- An error with what was being done when it arose. -/
structure Failure where
  context : String
  error : BindError

/-- Puts four blanks in front of every line. -/
def indent (text : String) : String :=
  String.ofList ("    ".toList ++
    text.toList.flatMap fun c => if c = '\n' then '\n' :: "    ".toList else [c])

def Failure.report (f : Failure) : String :=
  "Error: " ++ f.context ++ "\n\nCaused by:\n" ++ indent f.error.message ++ "\n"

/-- The end of a run of the program: what it printed, or why it failed. -/
inductive Ending where
  | done (output : String)
  | failed (failure : Failure)
  | misused

def Ending.code : Ending → Nat
  | .done _ => 0
  | .failed _ => 1
  | .misused => 2

section Commands

variable {m : Type → Type} {α : Type} [Monad m]

/-- A command: it collects events, and a failure ends it. -/
abbrev Steps (m : Type → Type) : Type → Type := ExceptT Failure (StateT (List Event) m)

/-- A task whose error is reported with `context`. -/
def during (context : String) (task : Task m α) : Steps m α :=
  ExceptT.mk fun events =>
    (task : m (Run α)) >>= fun run =>
      pure (run.outcome.mapError (Failure.mk context), events ++ run.events)

/-- The configuration of a file, or the defaults if none is given. -/
def loadConfiguration (storage : Storage m) : Option String → Steps m Configuration
  | some path =>
    during ("Failed to load config " ++ path) (Generator.loadConfiguration storage path)
  | none => pure {}

/-- The configuration from its file, overridden by the environment and then by the option. -/
def resolve (storage : Storage m) (environment config output : Option String) :
    Steps m Configuration := do
  let loaded ← loadConfiguration storage config
  let c := loaded.overlay environment
  pure { c with outputRoot := output.or c.outputRoot }

def loadDatabase (storage : Storage m) (path : String) : Steps m Database :=
  during ("Failed to load database " ++ path) (Generator.loadDatabase storage path)

def summary (report : Report) : String :=
  "Generated " ++ toString report.objects ++ " objects in " ++ toString report.namespaces ++
    " namespaces (" ++ toString report.files.length ++ " files)\n"

def generate (storage : Storage m) (environment : Option String) (database : String)
    (config output : Option String) : Steps m String := do
  let c ← resolve storage environment config output
  let db ← loadDatabase storage database
  let report ← during "Binding generation failed" (Generator.generate ⟨c, .sol3, storage⟩ db)
  pure (summary report)

def unitLine (u : BindingUnit) : String :=
  u.scope ++ " (" ++ toString u.objects.length ++ " objects)\n"

/-- The units with the numbers of their objects, and the totals. -/
def overview (units : List BindingUnit) : String :=
  String.join (units.map unitLine) ++ toString units.length ++ " namespaces, " ++
    toString (Generator.objectCount units) ++ " objects\n"

def check (storage : Storage m) (environment : Option String) (database : String)
    (config : Option String) : Steps m String := do
  let _ ← resolve storage environment config none
  let db ← loadDatabase storage database
  let units ← during "Database check failed" (Task.ofRun (db.plan .sol3))
  pure (overview units)

end Commands

def programHelp : String :=
  "C++ to scripting runtime binding generator\n\nUsage: cppbind <COMMAND>\n\nCommands:\n" ++
    "  generate  Write binding units and the bindings index\n" ++
    "  check     Validate a database and report what would be generated\n" ++
    "  help      Print this message or the help of the given subcommand(s)\n\n" ++
    "Options:\n  -h, --help  Print help\n"

def generateHelp : String :=
  "Write binding units and the bindings index\n\n" ++
    "Usage: cppbind generate [OPTIONS] --database <DATABASE>\n\nOptions:\n" ++
    "      --database <DATABASE>  Documentation database (JSON)\n" ++
    "      --config <CONFIG>      Generator configuration (TOML)\n" ++
    "      --output <OUTPUT>      " ++
    "Output root (overrides $CPPBIND_OUTPUT and the config file)\n" ++
    "  -h, --help                 Print help\n"

def checkHelp : String :=
  "Validate a database and report what would be generated\n\n" ++
    "Usage: cppbind check [OPTIONS] --database <DATABASE>\n\nOptions:\n" ++
    "      --database <DATABASE>  Documentation database (JSON)\n" ++
    "      --config <CONFIG>      Generator configuration (TOML)\n" ++
    "  -h, --help                 Print help\n"

def helpHelp : String :=
  "Print this message or the help of the given subcommand(s)\n\n" ++
    "Usage: cppbind help [COMMAND]...\n\nArguments:\n" ++
    "  [COMMAND]...  Print help for the subcommand(s)\n"

def helpText : Option String → String
  | some "generate" => generateHelp
  | some "check" => checkHelp
  | some "help" => helpHelp
  | _ => programHelp

variable {m : Type → Type} [Monad m]

def execute (storage : Storage m) (environment : Option String) : Command → Steps m String
  | .generate database config output => generate storage environment database config output
  | .check database config => check storage environment database config
  | .help topic => pure (helpText topic)

def Ending.of : Except Failure String → Ending
  | .ok output => .done output
  | .error failure => .failed failure

/-- Runs the program: the events it reports, and how it ends. -/
def run (storage : Storage m) (environment : Option String) (arguments : List String) :
    m (List Event × Ending) :=
  match parse arguments with
  | none => pure ([], .misused)
  | some command => do
    let ended ← (execute storage environment command).run.run []
    pure (ended.2, .of ended.1)

end ScriptBindings.CommandLine
