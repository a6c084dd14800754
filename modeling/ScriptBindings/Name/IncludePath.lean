namespace ScriptBindings.IncludePath

/-- Both slashes separate the components of a location. -/
def isSeparator (c : Char) : Bool :=
  c == '/' || c == '\\'

/-- The components of a location, without the empty ones and the dots. -/
def components (location : List Char) : List (List Char) :=
  (location.splitOnP isSeparator).filter fun s => s ≠ [] && s ≠ ['.']

/-- What follows the last occurrence of `x`, or the whole list if there is none. -/
def afterLast (x : List Char) : List (List Char) → List (List Char)
  | [] => []
  | s :: ss => if x ∈ ss then afterLast x ss else if s = x then ss else s :: ss

/-- The path below the last directory named `include`. -/
def ofLocation (location : String) : String :=
  "/".intercalate
    ((afterLast "include".toList (components location.toList)).map String.ofList)

/-- Endings of files that hold definitions and are never included. -/
def sourceEndings : List String := [".cpp", ".cc", ".cxx", ".c"]

def isSource (path : String) : Bool :=
  sourceEndings.any fun e => e.toList.isSuffixOf path.toList

end ScriptBindings.IncludePath
