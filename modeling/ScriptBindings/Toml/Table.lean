import ScriptBindings.Dictionary

namespace ScriptBindings.Toml

inductive Origin where
  /-- A header names the table. -/
  | named
  /-- A header names a table inside. -/
  | inferred
  /-- A dotted key leads through the table. -/
  | dotted
deriving DecidableEq, Repr

inductive Item where
  | value (text : Option String)
  | table (origin : Origin) (members : List (String × Item))
  /-- An array of tables, of which the last one can be reached. -/
  | tables (last : List (String × Item))
deriving Repr

abbrev Table := List (String × Item)

namespace Table

/-- Assigns a value below `table`. A table takes a key if it `accepts` keys, as those do to which
the assignment belongs or which only dotted keys made. -/
def assignIn (value : Option String) : Bool → List String → Table → Option Table
  | _, [], _ => none
  | accepts, [key], table =>
    if accepts && (table.lookup key).isNone then some (table ++ [(key, .value value)]) else none
  | _, key :: path, table =>
    match table.lookup key with
    | none => (assignIn value true path []).map fun t => Dictionary.put key (.table .dotted t) table
    | some (.table .named _) => none
    | some (.table origin members) =>
      (assignIn value (origin == .dotted) path members).map fun t =>
        Dictionary.put key (.table origin t) table
    | some (.tables last) =>
      (assignIn value false path last).map fun t => Dictionary.put key (.tables t) table
    | some (.value _) => none

def assign (path : List String) (value : Option String) (table : Table) : Option Table :=
  assignIn value true path table

/-- Applies `f` to the table that a header path leads to. -/
def within (f : Table → Option Table) : List String → Table → Option Table
  | [], table => f table
  | key :: path, table =>
    match table.lookup key with
    | none => (within f path []).map fun t => Dictionary.put key (.table .inferred t) table
    | some (.table origin members) =>
      (within f path members).map fun t => Dictionary.put key (.table origin t) table
    | some (.tables last) =>
      (within f path last).map fun t => Dictionary.put key (.tables t) table
    | some (.value _) => none

/-- Opens a table by its header; it may have been inferred, but not been named before. -/
def openKey (key : String) (table : Table) : Option Table :=
  match table.lookup key with
  | none => some (Dictionary.put key (.table .named []) table)
  | some (.table .inferred members) => some (Dictionary.put key (.table .named members) table)
  | some _ => none

/-- Opens the next table of an array. -/
def openArrayKey (key : String) (table : Table) : Option Table :=
  match table.lookup key with
  | none | some (.tables _) => some (Dictionary.put key (.tables []) table)
  | some _ => none

def openPath (f : String → Table → Option Table) (path : List String) (table : Table) :
    Option Table :=
  within (f (path.getLastD "")) path.dropLast table

end Table

end ScriptBindings.Toml
