import ScriptBindings.BindingUnit
import ScriptBindings.Index.TableOrder

namespace ScriptBindings

structure BindingIndex where
  includes : List String := []
  namespaces : List (List String × List String) := []
deriving DecidableEq, Repr

/-- A step of the index program. -/
inductive IndexStep where
  | createTable (path : List String)
  | register (path objects : List String)
deriving DecidableEq, Repr

namespace BindingIndex

def ofIncludes (includes : List String) : BindingIndex := { includes := includes }

/-- Adds a namespace with its objects; one without objects needs no table. -/
def addNamespace (index : BindingIndex) (segments objects : List String) : BindingIndex :=
  if objects = [] then index
  else { index with namespaces := index.namespaces ++ [(segments, objects)] }

def addUnits (index : BindingIndex) (units : List BindingUnit) : BindingIndex :=
  units.foldl (fun i u => i.addNamespace u.segments u.objects) index

/-- The tables in the order of their creation. -/
def tables (index : BindingIndex) : Run (List (List String)) :=
  TableOrder.complete (index.namespaces.map Prod.fst)

/-- All tables, then one chain of registrations for each namespace. -/
def program (index : BindingIndex) : Run (List IndexStep) := do
  let tables ← index.tables
  Run.ok (tables.map .createTable ++ index.namespaces.map fun n => .register n.1 n.2)

/-- The name by which the index refers to a loader. -/
def loaderPath (segments : List String) (object : String) : String :=
  Scope.join segments ++ "::Bindings::" ++ Loader.nameOf object

def chainText (adapter : Adapter) (segments objects : List String) : String :=
  "\n".intercalate (adapter.registerHead segments ::
    objects.map fun o => adapter.registerLink o (loaderPath segments o)) ++ ";\n"

def stepText (adapter : Adapter) : IndexStep → String
  | .createTable path => adapter.newTable path
  | .register segments objects => chainText adapter segments objects

def opening (adapter : Adapter) (scope treeName : String) : List String :=
  [BindingUnit.includeLine adapter.runtimeHeader, "namespace " ++ scope ++ " \x7b",
    "void IndexAllBindings(" ++ adapter.stateType ++ " state)\n\x7b", adapter.indexTree treeName]

def closing (adapter : Adapter) : List String :=
  [adapter.installIndex, "\x7d\n\x7d\n"]

/-- The source of the index routine, in the namespace `scope`. -/
def text (index : BindingIndex) (adapter : Adapter) (scope treeName : String) : Run String := do
  let steps ← index.program
  Run.ok ("\n".intercalate (index.includes.map BindingUnit.includeLine ++
    opening adapter scope treeName ++ steps.map (stepText adapter) ++ closing adapter))

end BindingIndex

end ScriptBindings
