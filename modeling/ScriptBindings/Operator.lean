import ScriptBindings.Entity.Signature
import ScriptBindings.Name.Identifier
import ScriptBindings.Name.TypeName

namespace ScriptBindings.Operator

/-- Every operator that can be bound, with the identifier of its binary form. -/
def table : List (String × String) :=
  [("++", "increment"), ("--", "decrement"), ("+", "add"), ("-", "subtract"), ("*", "multiply"),
    ("/", "divide"), ("!", "negate"), ("~", "complement"), ("%", "modulus"), ("==", "equal"),
    ("!=", "not_equal"), (">", "greater"), ("<", "less"), (">=", "greater_equal"),
    ("<=", "less_equal"), ("<=>", "three_way_comparison"), ("&&", "logical_and"),
    ("||", "logical_or"), ("&", "bitwise_and"), ("|", "bitwise_or"), ("^", "bitwise_xor"),
    ("<<", "left_shift"), (">>", "right_shift"), ("+=", "add_assign"), ("-=", "subtract_assign"),
    ("*=", "multiply_assign"), ("/=", "divide_assign"), ("%=", "modulus_assign"),
    (">>=", "right_shift_assign"), ("<<=", "left_shift_assign"), ("&=", "bitwise_and_assign"),
    ("|=", "bitwise_or_assign"), ("^=", "bitwise_xor_assign"), ("=", "assign"),
    ("[]", "subscript"), ("()", "call"), ("->", "member_access"), (",", "comma"),
    ("->*", "indirection_structure_dereference"), ("new", "allocate"), ("delete", "deallocate"),
    ("new[]", "allocate_array"), ("delete[]", "deallocate_array")]

/-- The operators that are spelled with letters. -/
def allocationTokens : List String := ["new", "delete", "new[]", "delete[]"]

def keyword : List Char := "operator".toList

/-- What follows the word `operator` in a name. -/
def tail? (name : String) : Option String :=
  if keyword.isPrefixOf name.toList then
    some (Blank.trim (String.ofList (name.toList.drop keyword.length)))
  else none

def startsWord (token : String) : Bool :=
  token.toList.head?.any Identifier.isWordChar

/-- The operator that a name denotes; a longer identifier such as `operator_count` denotes none. -/
def token? (name : String) : Option String :=
  match tail? name with
  | none => none
  | some token =>
    if token = "" then none
    else if startsWord token && token ∉ allocationTokens then none
    else some token

def identifier (token : String) : Except BindError String :=
  match table.lookup token with
  | some identifier => .ok identifier
  | none => .error (.unsupported ("operator" ++ token) .unnamedOperator)

/-- A sign that acts on its receiver alone is not the binary operator of the same token. -/
def memberIdentifier (token : String) (unary : Bool) : Except BindError String :=
  if unary && token = "-" then .ok "unary_minus"
  else if unary && token = "+" then .ok "unary_plus"
  else identifier token

/-- The identifier fragment of an operand of type `type`. -/
def operandFragment (type : String) : Except BindError String :=
  (TypeName.base type).map Identifier.fragment

/-- What a callable name designates, with the name shown for it. -/
inductive Designation where
  | function (name : String)
  | operator (name : String)
deriving DecidableEq, Repr

/-- The word in front of the identifiers of generated objects. -/
def Designation.word : Designation → String
  | .function _ => "Function"
  | .operator _ => "Operator"

def Designation.name : Designation → String
  | .function name => name
  | .operator name => name

/-- An operator is named after its first two operand types, with the operator's words between. -/
def operandName (name identifier : String) : List Parameter → Except BindError String
  | [] => .error (.unsupported name .noOperands)
  | [p] => do
    let left ← operandFragment p.type
    .ok (left ++ Identifier.camel identifier)
  | p :: q :: _ => do
    let left ← operandFragment p.type
    let right ← operandFragment q.type
    .ok (left ++ Identifier.camel identifier ++ right)

def classify (name : String) (parameters : List Parameter) : Except BindError Designation :=
  match token? name with
  | none => .ok (.function name)
  | some token => do
    let identifier ← identifier token
    let shown ← operandName name identifier parameters
    .ok (.operator shown)

end ScriptBindings.Operator
