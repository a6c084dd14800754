import ScriptBindings.Entity.Basic
import ScriptBindings.Name.Scope

namespace ScriptBindings

structure Database where
  namespaces : Catalog NamespaceInfo := .empty
  classes : Catalog Class := .empty
  enums : Catalog Enumeration := .empty
  functions : Catalog Callable := .empty
  globals : Catalog Global := .empty
  typedefs : Catalog Typedef := .empty
deriving DecidableEq, Repr, Inhabited

namespace Database

def empty : Database := {}

/-- The number of entities; a namespace is none. -/
def size (db : Database) : Nat :=
  db.classes.size + db.enums.size + db.functions.size + db.globals.size + db.typedefs.size

def isEmpty (db : Database) : Bool := db.size == 0

/-- The qualified names of all entities. -/
def keys (db : Database) : List String :=
  db.classes.keys ++ db.enums.keys ++ db.functions.keys ++ db.globals.keys ++ db.typedefs.keys

end Database

end ScriptBindings
