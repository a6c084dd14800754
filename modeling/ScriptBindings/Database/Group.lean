import ScriptBindings.Database.Basic
import ScriptBindings.SortedSet

namespace ScriptBindings

structure Group where
  name : String
  info : NamespaceInfo := {}
  classes : Catalog Class := .empty
  enums : Catalog Enumeration := .empty
  functions : Catalog Callable := .empty
  globals : Catalog Global := .empty
  typedefs : Catalog Typedef := .empty
deriving DecidableEq, Repr, Inhabited

namespace Group

def hasBindable (g : Group) : Bool :=
  g.classes.values.any (fun c => !c.flags.nobind) ||
    g.enums.values.any (fun e => !e.flags.nobind) ||
    g.functions.values.any Callable.isBindable || g.globals.values.any fun v => !v.flags.nobind

/-- The first entity that would be bound: classes come before enums, functions and globals. -/
def firstBindable (g : Group) : Option String :=
  (((g.classes.find? fun c => !c.flags.nobind).or (g.enums.find? fun e => !e.flags.nobind)).or
    (g.functions.find? Callable.isBindable)).or (g.globals.find? fun v => !v.flags.nobind)

end Group

namespace Database

/-- The part of a catalog that lies in the namespace `scope`. -/
def within {α : Type} (scope : String) (c : Catalog α) : Catalog α :=
  c.filter fun key _ => Scope.parent key = scope

def group (db : Database) (scope : String) : Group where
  name := scope
  info := (db.namespaces.get? scope).getD {}
  classes := within scope db.classes
  enums := within scope db.enums
  functions := within scope db.functions
  globals := within scope db.globals
  typedefs := within scope db.typedefs

/-- The namespaces that hold an entity, in order. -/
def scopes (db : Database) : List String :=
  SortedSet.ofList (db.keys.map Scope.parent)

def groups (db : Database) : List Group :=
  db.scopes.map db.group

/-- The group named `name` that holds every entity of the database. -/
def asGroup (db : Database) (name : String) (info : NamespaceInfo) : Group :=
  ⟨name, info, db.classes, db.enums, db.functions, db.globals, db.typedefs⟩

end Database

end ScriptBindings
