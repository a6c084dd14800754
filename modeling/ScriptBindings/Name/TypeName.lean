import ScriptBindings.Blank
import ScriptBindings.Error
import ScriptBindings.Name.Scope

namespace ScriptBindings.TypeName

def isMarker (c : Char) : Bool :=
  c == '&' || c == '*'

def isQualifier (word : List Char) : Bool :=
  word = "const".toList || word = "volatile".toList

/-- The words of a type expression, cut before their trailing markers, without the qualifiers. -/
def tokens (type : String) : List (List Char) :=
  ((Blank.words type).map (Blank.dropTail isMarker)).filter fun t => t ≠ [] && !isQualifier t

/-- The last segment of the only token. -/
def base (type : String) : Except BindError String :=
  match tokens type with
  | [t] => .ok (String.ofList (Scope.lastOf t))
  | [] => .error (.unsupported type .noBaseIdentifier)
  | _ => .error (.unsupported type .severalTokens)

end ScriptBindings.TypeName
