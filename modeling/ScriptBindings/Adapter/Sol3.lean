import ScriptBindings.Adapter

namespace ScriptBindings.Sol3

def quoted (s : String) : String := "\"" ++ s ++ "\""

/-- The access to a nested table, one index for each segment. -/
def access (path : List String) : String :=
  String.join (path.map fun s => "[" ++ quoted s ++ "]")

/-- Lua's meta-functions under the identifiers of their operators. -/
def metaFunctions : List (String × String) :=
  [("add", "addition"), ("subtract", "subtraction"), ("unary_minus", "unary_minus"),
    ("multiply", "multiplication"), ("divide", "division"), ("modulus", "modulus"),
    ("equal", "equal_to"), ("less", "less_than"), ("less_equal", "less_than_or_equal_to"),
    ("bitwise_and", "bitwise_and"), ("bitwise_or", "bitwise_or"), ("bitwise_xor", "bitwise_xor"),
    ("left_shift", "bitwise_left_shift"), ("right_shift", "bitwise_right_shift"),
    ("complement", "bitwise_not"), ("subscript", "index"), ("call", "call_function")]

/-- Lua derives inequality and the mirrored comparisons; an assignment has no meaning there. -/
def derived : List String := ["assign", "not_equal", "greater", "greater_equal"]

def bindGlobal (table name path : String) (readOnly : Bool) : String :=
  if readOnly then table ++ "[" ++ quoted name ++ "] = " ++ path ++ ";"
  else table ++ "[" ++ quoted name ++ "] = std::ref(" ++ path ++ ");"

def enumEntry (path value : String) : String :=
  "\x7b " ++ quoted value ++ ", " ++ Scope.member path value ++ " \x7d"

def bindEnum (table name path : String) (values : List String) : String :=
  table ++ ".new_enum<" ++ path ++ ">(" ++ quoted name ++ ", \x7b " ++
    ", ".intercalate (values.map (enumEntry path)) ++ " \x7d);"

def usertypeArguments (name : String) (constructors bases : List String) : List String :=
  quoted name ::
    ((if constructors = [] then []
      else ["sol::call_constructor",
        "sol::constructors<" ++ ", ".intercalate constructors ++ ">()"]) ++
     (if bases = [] then []
      else ["sol::base_classes", "sol::bases<" ++ ", ".intercalate bases ++ ">()"]))

def newUsertype (table usertype name path : String) (constructors bases : List String) : String :=
  "sol::usertype<" ++ path ++ "> " ++ usertype ++ " = " ++ table ++ ".new_usertype<" ++ path ++
    ">(" ++ ", ".intercalate (usertypeArguments name constructors bases) ++ ");"

def newTable (path : List String) : String :=
  "BindTree" ++ access path.dropLast ++ ".add(" ++ quoted (path.getLastD "") ++
    ", InitTreeNodeAsTable(" ++ quoted (".".intercalate path) ++ "));"

end ScriptBindings.Sol3

namespace ScriptBindings

def Adapter.sol3 : Adapter where
  stateType := "sol::state_view"
  runtimeHeader := "sol/sol.hpp"
  fetchTable path :=
    "sol::table " ++ path.getLastD "Global" ++ "Namespace = state" ++ Sol3.access path ++
      ".get<sol::table>();"
  overload codes := "sol::overload(" ++ ", ".intercalate codes ++ ")"
  bindFunction table name callable :=
    table ++ ".set_function(" ++ Sol3.quoted name ++ ", " ++ callable ++ ");"
  bindGlobal := Sol3.bindGlobal
  bindEnum := Sol3.bindEnum
  newUsertype := Sol3.newUsertype
  bindMember usertype name value := usertype ++ "[" ++ Sol3.quoted name ++ "] = " ++ value ++ ";"
  metaFunction identifier :=
    (Sol3.metaFunctions.lookup identifier).map fun m => "sol::meta_function::" ++ m
  derives identifier := identifier ∈ Sol3.derived
  bindMetaFunction usertype metaFunction value :=
    usertype ++ "[" ++ metaFunction ++ "] = " ++ value ++ ";"
  indexTree name := "BindingTree BindTree(" ++ Sol3.quoted name ++ ");"
  newTable := Sol3.newTable
  registerHead path := "BindTree" ++ Sol3.access path
  registerLink object loader := ".add(" ++ Sol3.quoted object ++ ", &" ++ loader ++ ")"
  installIndex := "BindTree(state);"

end ScriptBindings
