import ScriptBindings.Dictionary
import ScriptBindings.Entity.Callable

namespace ScriptBindings

structure Global where
  name : String := ""
  type : String := ""
  initializer : String := ""
  location : String := ""
  flags : Flags := {}
deriving DecidableEq, Repr, Inhabited

/-- Holds of a variable whose type has a word that forbids writing. -/
def Global.isConst (g : Global) : Bool :=
  (Blank.words g.type).any fun w => w = "const".toList || w = "constexpr".toList

def Global.declared (name type location : String) : Global :=
  { name := name, type := type, location := location }

structure EnumValue where
  name : String
  description : Option String := none
deriving DecidableEq, Repr, Inhabited

structure Enumeration where
  name : String := ""
  values : List EnumValue := []
  location : String := ""
  flags : Flags := {}
deriving DecidableEq, Repr, Inhabited

structure Attribute where
  name : String := ""
  type : String := ""
  isStatic : Bool := false
  flags : Flags := {}
deriving DecidableEq, Repr, Inhabited

structure Class where
  name : String := ""
  bases : List String := []
  isAbstract : Bool := false
  constructors : List Signature := []
  methods : Catalog Callable := .empty
  attributes : Catalog Attribute := .empty
  location : String := ""
  flags : Flags := {}
deriving DecidableEq, Repr, Inhabited

def Class.named (name : String) : Class := { name := name }

structure Typedef where
  name : String := ""
  type : String := ""
  location : String := ""
  flags : Flags := {}
deriving DecidableEq, Repr, Inhabited

structure NamespaceInfo where
  additionalIncludes : List String := []
  description : String := ""
deriving DecidableEq, Repr, Inhabited

end ScriptBindings
