namespace ScriptBindings

inductive Level where
  | debug
  | info
  | warning
deriving DecidableEq, Repr

/-- The kinds of declarations that are bound on their own. -/
inductive Kind where
  | classes
  | enums
  | functions
  | globals
deriving DecidableEq, Repr

def Kind.word : Kind → String
  | .classes => "class"
  | .enums => "enum"
  | .functions => "function"
  | .globals => "global"

inductive Event where
  | skipped (kind : Kind) (name : String)
  | binding (kind : Kind) (name : String)
  | methodSkipped (className key : String)
  | attributeSkipped (className key : String)
  | operatorDerived (method identifier : String)
  | bindingNamespace (scope : String)
  | typedefsUnbound (scope : String) (count : Nat)
  | nothingBound (scope : String)
  | tableAdded (table neededBy : List String)
  | generating (entities : Nat)
  | unitWritten (header source : String)
  | indexing
  | generated (objects namespaces : Nat)
deriving DecidableEq, Repr

def Event.level : Event → Level
  | .bindingNamespace _ | .generating _ | .indexing | .generated .. => .info
  | .tableAdded .. => .warning
  | _ => .debug

def Event.message : Event → String
  | .skipped kind name => "Skipping " ++ kind.word ++ " " ++ name ++ " (nobind)"
  | .binding kind name => "Generating bindings for " ++ kind.word ++ " " ++ name
  | .methodSkipped className key => "Skipping method " ++ className ++ "::" ++ key ++ " (nobind)"
  | .attributeSkipped className key =>
    "Skipping attribute " ++ className ++ "::" ++ key ++ " (nobind)"
  | .operatorDerived method identifier =>
    "Skipping " ++ method ++ " (" ++ identifier ++ " is provided by the runtime)"
  | .bindingNamespace scope => "Generating bindings for namespace " ++ scope
  | .typedefsUnbound scope count =>
    "Namespace " ++ scope ++ " has " ++ toString count ++ " typedef(s), none are bound"
  | .nothingBound scope => "Namespace " ++ scope ++ " produced no bindings"
  | .tableAdded table neededBy =>
    "Adding missing intermediate table " ++ ".".intercalate table ++ " (needed by " ++
      ".".intercalate neededBy ++ ")"
  | .generating entities => "Generating bindings for " ++ toString entities ++ " entities"
  | .unitWritten header source => "Wrote " ++ header ++ " and " ++ source
  | .indexing => "Generating bindings index"
  | .generated objects namespaces =>
    "Generated " ++ toString objects ++ " objects in " ++ toString namespaces ++ " namespaces"

end ScriptBindings
