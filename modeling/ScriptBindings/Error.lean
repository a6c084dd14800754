namespace ScriptBindings

/-- What is wrong with an entity. -/
inductive Cause where
  | noBaseIdentifier
  | severalTokens
  | unnamedOperator
  | noOperands
  | noMetaFunction (identifier : String)
  | globalNamespace
  | noSignatureName
  | noReturnType
  | noParameterType (index : Nat)
  | noParameterName (index : Nat)
  | gapInDefaults (parameter : String)
  | noFunctionName
  | noOverloads
  | noDeclarationLocation
  | noGlobalName
  | noGlobalType
  | noGlobalLocation
  | noEnumName
  | noEnumLocation
  | noClassName
  | noClassLocation
  | noAttributeType
  | stated (text : String)
  | seenIn (cause : Cause) (expression : String)
deriving DecidableEq, Repr

def Cause.message : Cause → String
  | .noBaseIdentifier => "type has no base identifier"
  | .severalTokens => "type normalizes to more than one token"
  | .unnamedOperator => "operator token has no binding name"
  | .noOperands => "free operator without operands"
  | .noMetaFunction identifier => "operator " ++ identifier ++ " has no runtime meta-function"
  | .globalNamespace => "entity in the global namespace has no table to be bound in"
  | .noSignatureName => "signature has no name"
  | .noReturnType => "signature has no return type"
  | .noParameterType index => "parameter #" ++ toString index ++ " has no type"
  | .noParameterName index => "parameter #" ++ toString index ++ " has no name"
  | .gapInDefaults parameter =>
    "parameter " ++ parameter ++ " has no default value but follows a defaulted parameter"
  | .noFunctionName => "function has no name"
  | .noOverloads => "overload set is empty"
  | .noDeclarationLocation => "declaration has no location"
  | .noGlobalName => "global has no name"
  | .noGlobalType => "global has no type"
  | .noGlobalLocation => "global has no location"
  | .noEnumName => "enum has no name"
  | .noEnumLocation => "enum has no location"
  | .noClassName => "class has no name"
  | .noClassLocation => "class has no location"
  | .noAttributeType => "attribute has no type"
  | .stated text => text
  | .seenIn cause expression => cause.message ++ " (" ++ expression ++ ")"

/-- How a text fails to be the JSON form of a value. -/
inductive JsonFault where
  | malformed
  | truncated
  | mismatched
deriving DecidableEq, Repr

def JsonFault.message : JsonFault → String
  | .malformed => "the text is not JSON"
  | .truncated => "the text ends too early"
  | .mismatched => "the value does not fit"

inductive BindError where
  | unsupported (entity : String) (cause : Cause)
  | malformed (entity : String) (cause : Cause)
  | collision (scope : String) (identifier : String)
  | file (path : String) (reason : String)
  | json (fault : JsonFault)
  | config (reason : String)
  | unset (variableName : String)
deriving DecidableEq, Repr

def BindError.message : BindError → String
  | .unsupported entity cause => "Unsupported construct in " ++ entity ++ ": " ++ cause.message
  | .malformed entity cause => "Malformed entity " ++ entity ++ ": " ++ cause.message
  | .collision scope identifier =>
    "Generated identifier " ++ identifier ++ " is not unique in namespace " ++ scope
  | .file path reason => "IO error on " ++ path ++ ": " ++ reason
  | .json fault => "Invalid documentation database: " ++ fault.message
  | .config reason => "Configuration error: " ++ reason
  | .unset variableName => "Environment variable not set: " ++ variableName

/-- Blames `entity`, and keeps the expression that was blamed so far inside the cause. -/
def BindError.inEntity (entity : String) : BindError → BindError
  | .unsupported inner cause => .unsupported entity (.seenIn cause inner)
  | .malformed inner cause => .malformed entity (.seenIn cause inner)
  | e => e

end ScriptBindings
