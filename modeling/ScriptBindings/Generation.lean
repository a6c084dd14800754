import ScriptBindings.Configuration
import ScriptBindings.Database.Format
import ScriptBindings.Files.Storage
import ScriptBindings.Index.Program
import ScriptBindings.Plan

namespace ScriptBindings

/-- What a run has written. -/
structure Report where
  namespaces : Nat
  objects : Nat
  files : List String
deriving DecidableEq, Repr

/-- What is generated, for which runtime, and through which storage. -/
structure Generator (m : Type → Type) where
  configuration : Configuration
  adapter : Adapter
  storage : Storage m

namespace Generator

variable {m : Type → Type} [Monad m]

/-- Writes the header and the source of a unit. -/
def writeUnit (g : Generator m) (u : BindingUnit) : Task m (List String) := do
  let includeRoot ← Task.ofRun (.ofExcept g.configuration.includeRoot)
  let sourceRoot ← Task.ofRun (.ofExcept g.configuration.sourceRoot)
  let header := Path.join includeRoot u.headerPath
  let source := Path.join sourceRoot u.sourcePath
  g.storage.save header u.header
  g.storage.save source u.source
  Task.ofRun (.report (.unitWritten header source))
  pure [header, source]

def writeUnits (g : Generator m) : List BindingUnit → Task m (List String)
  | [] => pure []
  | u :: us => do
    let files ← g.writeUnit u
    let more ← g.writeUnits us
    pure (files ++ more)

/-- Holds of the names that lead to a header, as the extension of the last one tells. -/
def isHeader (names : List String) : Bool :=
  (names.getLast?.bind Path.extension?) == some "hpp"

/-- The path under which generated code includes what some names lead to from the include root. -/
def includeText (names : List String) : String := "/".intercalate names

/-- The include path of a visited entry, if it is a regular file, a header, and below the root. -/
def headerOf (includeRoot : String) (v : Visit) : Option String :=
  if v.isRegular && isHeader v.names then
    (Path.below (Path.parts includeRoot) v.names).map includeText
  else none

/-- The include paths of all headers in the header directory. -/
def discoverHeaders (g : Generator m) : Task m (List String) := do
  let includeRoot ← Task.ofRun (.ofExcept g.configuration.includeRoot)
  let directory ← Task.ofRun (.ofExcept g.configuration.headerDirectory)
  let found ← Task.act (g.storage.exists? directory)
  if found then
    let visits ← Storage.attempt directory (g.storage.walk directory)
    pure (visits.filterMap (headerOf includeRoot))
  else pure []

/-- Writes the index of some units and of all headers. -/
def writeIndex (g : Generator m) (units : List BindingUnit) : Task m String := do
  Task.ofRun (.report .indexing)
  let headers ← g.discoverHeaders
  let path ← Task.ofRun (.ofExcept g.configuration.indexPath)
  let text ← Task.ofRun
    (((BindingIndex.ofIncludes headers).addUnits units).text g.adapter g.configuration.indexScope
      g.configuration.treeName)
  g.storage.save path text
  pure path

def objectCount (units : List BindingUnit) : Nat :=
  (units.flatMap BindingUnit.objects).length

/-- Writes the units of a database, and then the index. -/
def generate (g : Generator m) (db : Database) : Task m Report := do
  Task.ofRun (.report (.generating db.size))
  let units ← Task.ofRun (db.plan g.adapter)
  let files ← g.writeUnits units
  let index ← g.writeIndex units
  Task.ofRun (.report (.generated (objectCount units) units.length))
  pure ⟨units.length, objectCount units, files ++ [index]⟩

/-- Reads a database from a file. -/
def loadDatabase (storage : Storage m) (path : String) : Task m Database := do
  let text ← storage.load path
  Task.ofRun (.ofExcept (Database.ofText text))

/-- Reads a configuration from a file. -/
def loadConfiguration (storage : Storage m) (path : String) : Task m Configuration := do
  let text ← storage.load path
  Task.ofRun (.ofExcept (Configuration.ofToml text))

end Generator

end ScriptBindings
