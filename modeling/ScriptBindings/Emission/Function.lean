import ScriptBindings.Emission.Variable
import ScriptBindings.Operator

namespace ScriptBindings.Callable

/-- The object of a callable, named after its first signature where it is an operator. -/
def object (f : Callable) : Except BindError String := do
  let parameters := (f.firstSignature.map Signature.parameters).getD []
  let designation ← Operator.classify f.name parameters
  .ok (designation.word ++ Identifier.fragment designation.name)

/-- Holds of a single declaration without defaults, which its address denotes. -/
def isPlain : Callable → Bool
  | .single s => !s.hasDefaults
  | .overloaded _ => false

/-- The expression bound under the name of a free function. -/
def expression (adapter : Adapter) (path : String) (f : Callable) : String :=
  if f.isPlain then "&" ++ path
  else adapter.merge (f.candidates fun _ => .free path)

def statements (adapter : Adapter) (path : String) (f : Callable) : List String :=
  [adapter.fetchTable (tableOf path),
    adapter.bindFunction (adapter.tableVariable (tableOf path)) f.name (f.expression adapter path)]

def emit (adapter : Adapter) (path : String) (f : Callable) : Run BindingSet :=
  if f.isBindable then do
    Run.report (.binding .functions path)
    let object ← Run.ofExcept (f.object.mapError (BindError.inEntity path))
    Run.ok (.single (f.boundSignatures.map Signature.location)
      (.of adapter object (f.statements adapter path)))
  else do
    Run.report (.skipped .functions path)
    Run.ok .empty

def emitAll (adapter : Adapter) (functions : Catalog Callable) : Run BindingSet :=
  emitEach (emit adapter) functions

end ScriptBindings.Callable
