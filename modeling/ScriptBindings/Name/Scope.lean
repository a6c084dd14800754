namespace ScriptBindings.Scope

/-- Puts a character in front of the first piece. -/
def consHead (c : Char) : List (List Char) → List (List Char)
  | [] => [[c]]
  | s :: ss => (c :: s) :: ss

/-- Cuts at every `::`, taking the leftmost ones that do not overlap. -/
def pieces : List Char → List (List Char)
  | [] => [[]]
  | ':' :: ':' :: cs => [] :: pieces cs
  | c :: cs => consHead c (pieces cs)

/-- What stands before and after the rightmost `::`. -/
def cutLast : List Char → Option (List Char × List Char)
  | [] => none
  | c :: cs =>
    match cutLast cs with
    | some (front, back) => some (c :: front, back)
    | none =>
      match c, cs with
      | ':', ':' :: back => some ([], back)
      | _, _ => none

/-- The segments of a namespace path, without the empty ones. -/
def segments (name : String) : List String :=
  ((pieces name.toList).filter (· ≠ [])).map String.ofList

def join (segments : List String) : String :=
  "::".intercalate segments

/-- The name up to its template argument list. -/
def templateHead (name : String) : String :=
  String.ofList (name.toList.takeWhile (· ≠ '<'))

def lastOf (cs : List Char) : List Char :=
  match cutLast cs with
  | some (_, back) => back
  | none => cs

/-- The last segment of a name. -/
def last (name : String) : String :=
  String.ofList (lastOf name.toList)

/-- The namespace that holds a name, empty for a global one; template arguments do not count. -/
def parent (name : String) : String :=
  match cutLast (templateHead name).toList with
  | some (front, _) => String.ofList front
  | none => ""

/-- The name of a member of `scope`. -/
def member (scope name : String) : String :=
  scope ++ "::" ++ name

end ScriptBindings.Scope
