import ScriptBindings.Entity.Callable
import ScriptBindings.Name.Scope

namespace ScriptBindings

/-- The leading parameters of a signature that one call passes. -/
abbrev CallShape := List Parameter

namespace CallShape

def arity (shape : CallShape) : Nat := shape.length

def declarations (shape : CallShape) : String :=
  ", ".intercalate (shape.map Parameter.declaration)

def types (shape : CallShape) : String :=
  ", ".intercalate (shape.map Parameter.type)

def names (shape : CallShape) : String :=
  ", ".intercalate (shape.map Parameter.name)

end CallShape

/-- From the mandatory parameters to the full list, one parameter more each time. -/
def Signature.callShapes (s : Signature) : List CallShape :=
  (List.range' s.mandatoryCount (s.parameters.length + 1 - s.mandatoryCount)).map
    s.parameters.take

/-- What a candidate ends up calling. -/
inductive CallTarget where
  | free (path : String)
  | member (className method : String)
deriving DecidableEq, Repr

namespace CallTarget

def address : CallTarget → String
  | .free path => "&" ++ path
  | .member className method => "&" ++ Scope.member className method

/-- A static member is called like a free function through its path. -/
def ofMethod (className method path : String) (s : Signature) : CallTarget :=
  if s.isStatic then .free path else .member className method

end CallTarget

inductive CandidateForm where
  | cast
  | wrapper
deriving DecidableEq, Repr

/-- One of the expressions bound under a name, with the number of parameters it takes. -/
structure Candidate where
  form : CandidateForm
  arity : Nat
  code : String
deriving DecidableEq, Repr

namespace Candidate

def pointer : CallTarget → String
  | .free _ => "(*)"
  | .member className _ => "(" ++ className ++ "::*)"

def qualifierTail (s : Signature) : String :=
  if s.qualifiers = [] then "" else " " ++ " ".intercalate s.qualifiers

/-- The cast that selects one overload. -/
def castCode (target : CallTarget) (s : Signature) : String :=
  "static_cast<" ++ s.returnType ++ " " ++ pointer target ++ "(" ++ s.parameterTypes ++ ")" ++
    qualifierTail s ++ ">(" ++ target.address ++ ")"

theorem castCode_eq (target : CallTarget) (s : Signature) :
    castCode target s = "static_cast<" ++ (s.returnType ++ " " ++ pointer target ++ "(" ++
      ", ".intercalate (s.parameters.map Parameter.type) ++ ")" ++ qualifierTail s ++ ">(" ++
      target.address ++ ")") := by
  unfold castCode Signature.parameterTypes
  simp only [String.append_assoc]

def receiver (className : String) (s : Signature) : String :=
  if "const" ∈ s.qualifiers then "const " ++ className ++ "& self" else className ++ "& self"

def lambda (parameters returnType call : String) : String :=
  "[](" ++ parameters ++ ") -> " ++ returnType ++ " \x7b return " ++ call ++ "; \x7d"

/-- The function that passes exactly the parameters of a shape. -/
def wrapperCode (target : CallTarget) (s : Signature) (shape : CallShape) : String :=
  match target with
  | .free path => lambda shape.declarations s.returnType (path ++ "(" ++ shape.names ++ ")")
  | .member className method =>
    let parameters :=
      if shape = [] then receiver className s
      else receiver className s ++ ", " ++ shape.declarations
    lambda parameters s.returnType ("self." ++ method ++ "(" ++ shape.names ++ ")")

theorem wrapperCode_free (path : String) (s : Signature) (shape : CallShape) :
    wrapperCode (.free path) s shape = "[](" ++
      (", ".intercalate (shape.map Parameter.declaration) ++ ") -> " ++ s.returnType ++
        " \x7b return " ++ path ++ "(" ++ ", ".intercalate (shape.map Parameter.name) ++ ")" ++
        "; \x7d") := by
  simp only [wrapperCode, lambda, CallShape.declarations, CallShape.names, String.append_assoc]

theorem wrapperCode_member (className method : String) (s : Signature) (shape : CallShape) :
    wrapperCode (.member className method) s shape = "[](" ++
      (", ".intercalate (receiver className s :: shape.map Parameter.declaration) ++ ") -> " ++
        s.returnType ++ " \x7b return " ++ "self." ++ method ++ "(" ++
        ", ".intercalate (shape.map Parameter.name) ++ ")" ++ "; \x7d") := by
  have hparameters : ", ".intercalate (receiver className s :: shape.map Parameter.declaration) =
      if shape = [] then receiver className s
      else receiver className s ++ ", " ++ shape.declarations := by
    cases shape with
    | nil => rw [List.map_nil, String.intercalate_singleton, if_pos rfl]
    | cons p shape =>
      rw [if_neg (List.cons_ne_nil p shape), List.map_cons, String.intercalate_cons_cons,
        CallShape.declarations, List.map_cons]
  simp only [wrapperCode, lambda, CallShape.names, hparameters, String.append_assoc]

def ofCast (target : CallTarget) (s : Signature) : Candidate :=
  ⟨.cast, s.parameters.length, castCode target s⟩

def ofShape (target : CallTarget) (s : Signature) (shape : CallShape) : Candidate :=
  ⟨.wrapper, shape.arity, wrapperCode target s shape⟩

end Candidate

/-- One cast, or one wrapper for each shape of a signature with defaults. -/
def Signature.candidates (s : Signature) (target : CallTarget) : List Candidate :=
  if s.hasDefaults then s.callShapes.map (Candidate.ofShape target s)
  else [Candidate.ofCast target s]

/-- The candidates of several signatures, in order. -/
def candidatesOf (target : Signature → CallTarget) (signatures : List Signature) :
    List Candidate :=
  signatures.flatMap fun s => s.candidates (target s)

def Callable.candidates (f : Callable) (target : Signature → CallTarget) : List Candidate :=
  candidatesOf target f.boundSignatures

end ScriptBindings
