import ScriptBindings.Adapter
import ScriptBindings.Name.IncludePath

namespace ScriptBindings

/-- A generated object and the definition of its loader. -/
structure Loader where
  object : String
  body : String
deriving DecidableEq, Repr

namespace Loader

def nameOf (object : String) : String := "Load" ++ object

def signature (adapter : Adapter) (object : String) : String :=
  "void " ++ nameOf object ++ "(" ++ adapter.stateType ++ " state)"

def definition (adapter : Adapter) (object : String) (statements : List String) : String :=
  signature adapter object ++ "\n\x7b\n" ++ "\n".intercalate statements ++ "\n\x7d"

def of (adapter : Adapter) (object : String) (statements : List String) : Loader :=
  ⟨object, definition adapter object statements⟩

end Loader

structure BindingSet where
  includes : List String := []
  loaders : List Loader := []
deriving DecidableEq, Repr

namespace BindingSet

def empty : BindingSet := {}

def objects (b : BindingSet) : List String := b.loaders.map Loader.object

def bodies (b : BindingSet) : List String := b.loaders.map Loader.body

def isEmpty (b : BindingSet) : Bool := b.loaders.isEmpty

def push (b : BindingSet) (l : Loader) : BindingSet :=
  { b with loaders := b.loaders ++ [l] }

/-- Adds the include path of the place where an entity is declared. -/
def includeLocation (b : BindingSet) (location : String) : BindingSet :=
  { b with includes := b.includes ++ [IncludePath.ofLocation location] }

def append (b c : BindingSet) : BindingSet :=
  ⟨b.includes ++ c.includes, b.loaders ++ c.loaders⟩

instance : Append BindingSet := ⟨append⟩

def concat (bs : List BindingSet) : BindingSet :=
  ⟨bs.flatMap includes, bs.flatMap loaders⟩

/-- The set of one entity, declared at `locations`. -/
def single (locations : List String) (l : Loader) : BindingSet :=
  ⟨locations.map IncludePath.ofLocation, [l]⟩

end BindingSet

end ScriptBindings
