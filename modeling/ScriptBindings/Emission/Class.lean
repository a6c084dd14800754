import ScriptBindings.Emission.Function

namespace ScriptBindings.Class

def object (c : Class) : String := "Class" ++ Identifier.fragment c.name

/-- One constructor for each call shape, without repetitions; an abstract class has none. -/
def constructorList (path : String) (c : Class) : List String :=
  if c.isAbstract then []
  else
    ((c.constructors.filter fun s => !s.flags.nobind).flatMap fun s =>
      s.callShapes.map fun shape => path ++ "(" ++ shape.types ++ ")").eraseDups

/-- The expression bound for some signatures of a method. -/
def methodExpression (adapter : Adapter) (className : String) (method : Callable)
    (signatures : List Signature) : String :=
  let path := Scope.member className method.name
  match method, signatures with
  | .single _, [s] =>
    if s.hasDefaults then
      adapter.merge (candidatesOf (CallTarget.ofMethod className method.name path) [s])
    else "&" ++ path
  | _, _ => adapter.merge (candidatesOf (CallTarget.ofMethod className method.name path) signatures)

/-- A signature that acts on its receiver alone. -/
def isUnary (s : Signature) : Bool :=
  !s.isStatic && s.parameters.isEmpty

/-- The meta-function under which a signature of an operator is bound, or none if the runtime
derives the operator. -/
def metaKey (adapter : Adapter) (methodPath token : String) (s : Signature) :
    Run (Option String) := do
  let identifier ← Run.ofExcept
    ((Operator.memberIdentifier token (isUnary s)).mapError (BindError.inEntity methodPath))
  match adapter.metaFunction identifier with
  | some key => Run.ok (some key)
  | none =>
    if adapter.derives identifier then do
      Run.report (.operatorDerived methodPath identifier)
      Run.ok none
    else Run.fail (.unsupported methodPath (.noMetaFunction identifier))

/-- The signatures under each key, the keys in the order of their first use. -/
def groupByKey (keyed : List (Option String × Signature)) : List (String × List Signature) :=
  (keyed.filterMap Prod.fst).eraseDups.map fun key =>
    (key, (keyed.filter fun e => e.1 == some key).map Prod.snd)

/-- One statement for each meta-function that the signatures of an operator land on. -/
def operatorStatements (adapter : Adapter) (className usertype token : String)
    (method : Callable) : Run (List String) := do
  let keys ← Run.collect (metaKey adapter (Scope.member className method.name) token)
    method.boundSignatures
  Run.ok ((groupByKey (keys.zip method.boundSignatures)).map fun e =>
    adapter.bindMetaFunction usertype e.1 (methodExpression adapter className method e.2))

def methodStatements (adapter : Adapter) (className usertype key : String) (method : Callable) :
    Run (List String) :=
  if method.isBindable then
    match Operator.token? method.name with
    | some token => operatorStatements adapter className usertype token method
    | none =>
      Run.ok [adapter.bindMember usertype method.name
        (methodExpression adapter className method method.boundSignatures)]
  else do
    Run.report (.methodSkipped className key)
    Run.ok []

def attributeStatements (adapter : Adapter) (className usertype key : String) (a : Attribute) :
    Run (List String) :=
  if a.flags.nobind then do
    Run.report (.attributeSkipped className key)
    Run.ok []
  else
    Run.ok [adapter.bindMember usertype a.name ("&" ++ Scope.member className a.name)]

def usertype (adapter : Adapter) (c : Class) : String :=
  adapter.usertypeVariable (Identifier.fragment c.name)

/-- The statements that declare the user type in its table. -/
def declaration (adapter : Adapter) (path : String) (c : Class) : List String :=
  [adapter.fetchTable (tableOf path),
    adapter.newUsertype (adapter.tableVariable (tableOf path)) (c.usertype adapter) c.name path
      (c.constructorList path) c.bases]

def statements (adapter : Adapter) (path : String) (c : Class) : Run (List String) := do
  let methods ← Run.collect
    (fun e => methodStatements adapter path (c.usertype adapter) e.1 e.2) c.methods.entries
  let attributes ← Run.collect
    (fun e => attributeStatements adapter path (c.usertype adapter) e.1 e.2) c.attributes.entries
  Run.ok (c.declaration adapter path ++ methods.flatten ++ attributes.flatten)

def emit (adapter : Adapter) (path : String) (c : Class) : Run BindingSet :=
  if c.flags.nobind then do
    Run.report (.skipped .classes path)
    Run.ok .empty
  else do
    Run.report (.binding .classes path)
    let statements ← c.statements adapter path
    Run.ok (.single [c.location] (.of adapter c.object statements))

def emitAll (adapter : Adapter) (classes : Catalog Class) : Run BindingSet :=
  emitEach (emit adapter) classes

end ScriptBindings.Class
