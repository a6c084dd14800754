import ScriptBindings.Blank
import ScriptBindings.Error

namespace ScriptBindings

structure Flags where
  nobind : Bool := false
deriving DecidableEq, Repr, Inhabited

structure Parameter where
  name : String := ""
  type : String := ""
  default : Option String := none
deriving DecidableEq, Repr, Inhabited

def Parameter.hasDefault (p : Parameter) : Bool := p.default.isSome

def Parameter.declaration (p : Parameter) : String := p.type ++ " " ++ p.name

structure Signature where
  name : String := ""
  returnType : String := ""
  parameters : List Parameter := []
  qualifiers : List String := []
  location : String := ""
  isStatic : Bool := false
  flags : Flags := {}
deriving DecidableEq, Repr, Inhabited

namespace Signature

/-- The number of parameters before the first one that has a default value. -/
def mandatoryCount (s : Signature) : Nat :=
  (s.parameters.takeWhile fun p => !p.hasDefault).length

def hasDefaults (s : Signature) : Bool :=
  s.parameters.any Parameter.hasDefault

def parameterTypes (s : Signature) : String :=
  ", ".intercalate (s.parameters.map Parameter.type)

/-- The first parameter without type or name, counting from `index`. -/
def parameterFault (index : Nat) : List Parameter → Option Cause
  | [] => none
  | p :: ps =>
    if Blank.isBlankText p.type then some (.noParameterType index)
    else if Blank.isBlankText p.name then some (.noParameterName index)
    else parameterFault (index + 1) ps

/-- The first parameter without default value after one that has it. -/
def defaultGap (s : Signature) : Option Parameter :=
  (s.parameters.drop s.mandatoryCount).find? fun p => !p.hasDefault

/-- The first fault of a signature, if it has one. -/
def fault (s : Signature) (needsReturn : Bool) : Option Cause :=
  if s.name = "" then some .noSignatureName
  else if needsReturn && Blank.isBlankText s.returnType then some .noReturnType
  else (parameterFault 0 s.parameters).or (s.defaultGap.map fun p => .gapInDefaults p.name)

def validate (s : Signature) (entity : String) (needsReturn : Bool) : Except BindError Unit :=
  match s.fault needsReturn with
  | none => .ok ()
  | some cause => .error (.malformed entity cause)

/-- The signature without parameters that returns `returnType`. -/
def returning (name returnType : String) : Signature :=
  { name := name, returnType := returnType }

def addParameter (s : Signature) (p : Parameter) : Signature :=
  { s with parameters := s.parameters ++ [p] }

def addQualifier (s : Signature) (q : String) : Signature :=
  { s with qualifiers := s.qualifiers ++ [q] }

def located (s : Signature) (location : String) : Signature :=
  { s with location := location }

def asStatic (s : Signature) : Signature :=
  { s with isStatic := true }

end Signature

end ScriptBindings
