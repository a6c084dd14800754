namespace ScriptBindings.Identifier

def isWordChar (c : Char) : Bool :=
  c.isAlphanum || c == '_'

def capitalize : List Char → List Char
  | [] => []
  | c :: cs => c.toUpper :: cs

/-- Keeps the identifier characters of a text and capitalizes the first that is left. -/
def clean (cs : List Char) : List Char :=
  capitalize (cs.filter isWordChar)

def fragment (name : String) : String :=
  String.ofList (clean name.toList)

/-- Joins the words between underscores, each with a capital: `left_shift` becomes `LeftShift`. -/
def camel (name : String) : String :=
  String.ofList ((name.toList.splitOn '_').flatMap clean)

end ScriptBindings.Identifier
