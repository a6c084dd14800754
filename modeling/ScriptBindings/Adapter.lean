import ScriptBindings.CallShape

namespace ScriptBindings

/-- The declaration of a class by its qualified name. -/
def forwardDeclaration (className : String) : String :=
  match Scope.cutLast className.toList with
  | some (front, back) =>
    "namespace " ++ String.ofList front ++ " \x7b class " ++ String.ofList back ++ "; \x7d;"
  | none => "class " ++ className ++ ";"

structure Adapter where
  stateType : String
  runtimeHeader : String
  tableVariable : List String → String := fun path => path.getLastD "Global" ++ "Namespace"
  fetchTable : List String → String
  overload : List String → String
  bindFunction (table name callable : String) : String
  bindGlobal (table name path : String) (readOnly : Bool) : String
  bindEnum (table name path : String) (values : List String) : String
  usertypeVariable : String → String := fun name => "bind" ++ name
  newUsertype (table usertype name path : String) (constructors bases : List String) : String
  bindMember (usertype name value : String) : String
  metaFunction : String → Option String
  /-- Operators that the runtime provides by itself. -/
  derives : String → Bool := fun _ => false
  bindMetaFunction (usertype metaFunction value : String) : String
  stateDeclaration : String := forwardDeclaration stateType
  indexTree : String → String
  newTable : List String → String
  registerHead : List String → String
  registerLink (object loader : String) : String
  installIndex : String

/-- One candidate stands for itself; several are merged into one overloaded value. -/
def Adapter.merge (adapter : Adapter) : List Candidate → String
  | [c] => c.code
  | cs => adapter.overload (cs.map Candidate.code)

end ScriptBindings
