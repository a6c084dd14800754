import ScriptBindings.BindingUnit
import ScriptBindings.Toml.Statement

namespace ScriptBindings

structure Configuration where
  outputRoot : Option String := none
  /-- The directory of the generated files below the roots of headers and sources. -/
  moduleName : String := "Core"
  /-- The namespace of the index routine. -/
  indexScope : String := "obe::Bindings"
  /-- The name of the tree that the index builds. -/
  treeName : String := "ObEngine"
deriving DecidableEq, Repr, Inhabited

namespace Configuration

/-- The environment variable that names the output root. -/
def outputVariable : String := "CPPBIND_OUTPUT"

def indexFile : String := "index.cpp"

def writingTo (root : String) : Configuration := { outputRoot := some root }

/-- Takes the output root from the environment, unless the variable is unset or empty. -/
def overlay (environment : Option String) (c : Configuration) : Configuration :=
  match environment with
  | some root => if root = "" then c else { c with outputRoot := some root }
  | none => c

def root (c : Configuration) : Except BindError String :=
  match c.outputRoot with
  | some root => .ok root
  | none => .error (.unset outputVariable)

/-- The defaults, with an output root that the environment must provide. -/
def ofEnvironment (environment : Option String) : Except BindError Configuration := do
  let c := overlay environment {}
  let _ ← c.root
  .ok c

def unreadable : BindError := .config "the text is not TOML"

/-- The text of a setting, or none if the setting is missing. -/
def setting (table : Toml.Table) (name : String) : Except BindError (Option String) :=
  match table.lookup name with
  | none => .ok none
  | some (.value (some text)) => .ok (some text)
  | some _ => .error (.config ("the setting " ++ name ++ " is not a text"))

/-- Reads a configuration. Settings that are missing have their defaults, and others are ignored. -/
def ofToml (text : String) : Except BindError Configuration :=
  match Toml.parse text with
  | none => .error unreadable
  | some table => do
    let root ← setting table "output_root"
    let moduleName ← setting table "module"
    let indexScope ← setting table "index_namespace"
    let treeName ← setting table "tree_name"
    let defaults : Configuration := {}
    .ok {
      outputRoot := root
      moduleName := moduleName.getD defaults.moduleName
      indexScope := indexScope.getD defaults.indexScope
      treeName := treeName.getD defaults.treeName }

/-- The directory below which generated code includes headers. -/
def includeRoot (c : Configuration) : Except BindError String :=
  c.root.map fun root => Path.join (Path.join root "include") c.moduleName

def sourceRoot (c : Configuration) : Except BindError String :=
  c.root.map fun root => Path.join (Path.join root "src") c.moduleName

/-- The directory of the generated headers. -/
def headerDirectory (c : Configuration) : Except BindError String :=
  c.includeRoot.map fun root => Path.join root BindingUnit.directory

def indexPath (c : Configuration) : Except BindError String :=
  c.sourceRoot.map fun root => Path.join (Path.join root BindingUnit.directory) indexFile

end Configuration

end ScriptBindings
