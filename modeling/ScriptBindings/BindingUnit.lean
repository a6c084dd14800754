import ScriptBindings.Database.Group
import ScriptBindings.Emission.Class
import ScriptBindings.Files.Path

namespace ScriptBindings

structure BindingUnit where
  scope : String
  segments : List String
  objects : List String
  header : String
  source : String
deriving DecidableEq, Repr, Inhabited

namespace BindingUnit

/-- The directory of all generated files, below the roots of headers and sources. -/
def directory : String := "Bindings"

def stem (segments : List String) : String := segments.getLastD ""

/-- A file of a namespace: one directory for each segment, and the last segment as name. -/
def filePath (segments : List String) (ending : String) : String :=
  Path.join (segments.foldl Path.join directory) (stem segments ++ ending)

def headerPath (u : BindingUnit) : String := filePath u.segments ".hpp"

def sourcePath (u : BindingUnit) : String := filePath u.segments ".cpp"

def includeOf (segments : List String) : String :=
  "/".intercalate (directory :: segments) ++ "/" ++ stem segments ++ ".hpp"

/-- The path under which generated code includes the header. -/
def headerInclude (u : BindingUnit) : String := includeOf u.segments

def includeLine (path : String) : String := "#include <" ++ path ++ ">"

def bindingsScope (scope : String) : String := "namespace " ++ scope ++ "::Bindings\n"

def block (lines : List String) : String :=
  "\x7b\n" ++ "\n".intercalate lines ++ "\n\x7d;\n"

/-- Declares one loader for each object. -/
def headerText (adapter : Adapter) (scope : String) (objects : List String) : String :=
  "#pragma once\n\n" ++ adapter.stateDeclaration ++ "\n" ++ bindingsScope scope ++
    block (objects.map fun o => Loader.signature adapter o ++ ";")

/-- Defines every loader, below the headers it needs. -/
def sourceText (adapter : Adapter) (scope headerInclude : String) (includes bodies : List String) :
    String :=
  includeLine headerInclude ++ "\n\n" ++ "\n".intercalate (includes.map includeLine) ++ "\n\n" ++
    includeLine adapter.runtimeHeader ++ "\n\n" ++ bindingsScope scope ++ block bodies

/-- The headers of the bound declarations and those that the namespace asks for. -/
def includesOf (b : BindingSet) (info : NamespaceInfo) : List String :=
  SortedSet.ofList
    ((b.includes.filter fun i => !IncludePath.isSource i) ++ info.additionalIncludes)

/-- The unit of a namespace whose loaders are those of `b`. -/
def ofSet (adapter : Adapter) (scope : String) (info : NamespaceInfo) (b : BindingSet) :
    BindingUnit :=
  let segments := Scope.segments scope
  { scope := scope
    segments := segments
    objects := b.objects
    header := headerText adapter scope b.objects
    source := sourceText adapter scope (includeOf segments) (includesOf b info) b.bodies }

end BindingUnit

/-- The first member that repeats an earlier one. -/
def firstRepeated (seen : List String) : List String → Option String
  | [] => none
  | s :: ss => if s ∈ seen then some s else firstRepeated (s :: seen) ss

namespace Group

/-- All loaders of a group: classes, enums, functions and globals. -/
def emit (adapter : Adapter) (g : Group) : Run BindingSet := do
  let classes ← Class.emitAll adapter g.classes
  let enums ← Enumeration.emitAll adapter g.enums
  let functions ← Callable.emitAll adapter g.functions
  let globals ← Global.emitAll adapter g.globals
  Run.ok (classes ++ enums ++ functions ++ globals)

def reportTypedefs (g : Group) : Run Unit :=
  if g.typedefs.size = 0 then Run.ok ()
  else Run.report (.typedefsUnbound g.name g.typedefs.size)

/-- The unit of a set of loaders, if it has any and all their objects differ. -/
def assemble (adapter : Adapter) (g : Group) (b : BindingSet) : Run (Option BindingUnit) :=
  if b.isEmpty then do
    Run.report (.nothingBound g.name)
    Run.ok none
  else
    match firstRepeated [] b.objects with
    | some object => Run.fail (.collision g.name object)
    | none => Run.ok (some (BindingUnit.ofSet adapter g.name g.info b))

/-- Binds every entity of a group. Nothing of the global namespace can be bound, since there is no
table for it. -/
def unit (adapter : Adapter) (g : Group) : Run (Option BindingUnit) :=
  if g.name = "" then
    match g.firstBindable with
    | some entity => Run.fail (.unsupported entity .globalNamespace)
    | none => Run.ok none
  else do
    Run.report (.bindingNamespace g.name)
    let loaders ← g.emit adapter
    g.reportTypedefs
    g.assemble adapter loaders

end Group

end ScriptBindings
