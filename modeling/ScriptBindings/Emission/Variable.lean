import ScriptBindings.BindingSet
import ScriptBindings.Entity.Basic
import ScriptBindings.Name.Identifier
import ScriptBindings.Run

namespace ScriptBindings

/-- The set of all entries of a catalog, in order. -/
def emitEach {α : Type} (emit : String → α → Run BindingSet) (c : Catalog α) :
    Run BindingSet := do
  let sets ← Run.collect (fun e => emit e.1 e.2) c.entries
  Run.ok (BindingSet.concat sets)

/-- The table of the namespace that holds `path`: its segments, as the runtime nests them. -/
def tableOf (path : String) : List String :=
  Scope.segments (Scope.parent path)

namespace Global

def object (g : Global) : String := "Global" ++ Identifier.fragment g.name

def statements (adapter : Adapter) (path : String) (g : Global) : List String :=
  [adapter.fetchTable (tableOf path),
    adapter.bindGlobal (adapter.tableVariable (tableOf path)) g.name path g.isConst]

def emit (adapter : Adapter) (path : String) (g : Global) : Run BindingSet :=
  if g.flags.nobind then do
    Run.report (.skipped .globals path)
    Run.ok .empty
  else do
    Run.report (.binding .globals path)
    Run.ok (.single [g.location] (.of adapter g.object (g.statements adapter path)))

def emitAll (adapter : Adapter) (globals : Catalog Global) : Run BindingSet :=
  emitEach (emit adapter) globals

end Global

namespace Enumeration

def object (e : Enumeration) : String := "Enum" ++ Identifier.fragment e.name

def statements (adapter : Adapter) (path : String) (e : Enumeration) : List String :=
  [adapter.fetchTable (tableOf path),
    adapter.bindEnum (adapter.tableVariable (tableOf path)) e.name path
      (e.values.map EnumValue.name)]

def emit (adapter : Adapter) (path : String) (e : Enumeration) : Run BindingSet :=
  if e.flags.nobind then do
    Run.report (.skipped .enums path)
    Run.ok .empty
  else do
    Run.report (.binding .enums path)
    Run.ok (.single [e.location] (.of adapter e.object (e.statements adapter path)))

def emitAll (adapter : Adapter) (enums : Catalog Enumeration) : Run BindingSet :=
  emitEach (emit adapter) enums

end Enumeration

end ScriptBindings
