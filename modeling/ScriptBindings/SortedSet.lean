namespace ScriptBindings.SortedSet

def insert (s : String) : List String → List String
  | [] => [s]
  | t :: ts => if s < t then s :: t :: ts else if s = t then t :: ts else t :: insert s ts

def ofList (ts : List String) : List String :=
  ts.foldr insert []

end ScriptBindings.SortedSet
