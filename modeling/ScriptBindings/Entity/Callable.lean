import ScriptBindings.Entity.Signature

namespace ScriptBindings

structure OverloadSet where
  name : String := ""
  overloads : List Signature := []
  flags : Flags := {}
deriving DecidableEq, Repr, Inhabited

inductive Callable where
  | single (signature : Signature)
  | overloaded (set : OverloadSet)
deriving DecidableEq, Repr, Inhabited

namespace Callable

def name : Callable → String
  | .single s => s.name
  | .overloaded set => set.name

def flags : Callable → Flags
  | .single s => s.flags
  | .overloaded set => set.flags

def signatures : Callable → List Signature
  | .single s => [s]
  | .overloaded set => set.overloads

/-- The signatures that are not hidden. -/
def boundSignatures (f : Callable) : List Signature :=
  f.signatures.filter fun s => !s.flags.nobind

/-- Holds of the callables that yield a binding. -/
def isBindable (f : Callable) : Bool :=
  !f.flags.nobind && !f.boundSignatures.isEmpty

def firstSignature (f : Callable) : Option Signature :=
  f.boundSignatures.head?

def isOverloadSet : Callable → Bool
  | .single _ => false
  | .overloaded _ => true

/-- An overload set without members cannot be bound. -/
def hasNoOverloads (f : Callable) : Bool :=
  f.signatures.isEmpty

def validate (f : Callable) (entity : String) : Except BindError Unit :=
  if f.name = "" then .error (.malformed entity .noFunctionName)
  else if f.hasNoOverloads then .error (.malformed entity .noOverloads)
  else f.boundSignatures.forM fun s => s.validate entity true

end Callable

end ScriptBindings
