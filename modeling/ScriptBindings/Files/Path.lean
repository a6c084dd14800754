namespace ScriptBindings.Path

/-- Paths are shorter than this many bytes. -/
def sizeLimit : Nat := 4096

/-- Holds of the paths that can name anything: they are short, and no character ends them early. -/
def isValid (path : String) : Bool :=
  path.utf8ByteSize < sizeLimit && !path.toList.contains '\x00'

def isAbsolute (path : String) : Bool :=
  path.toList.head? == some '/'

/-- A separator follows every base that is neither empty nor ends in one. -/
def needsSeparator (base : String) : Bool :=
  base.toList.getLast?.any (· ≠ '/')

/-- The path that `rest` names below `base`; an absolute path stands for itself. -/
def join (base rest : String) : String :=
  if isAbsolute rest then rest
  else if needsSeparator base then base ++ "/" ++ rest
  else base ++ rest

/-- Empty names and dots lead nowhere. -/
def isIdle (name : List Char) : Bool :=
  name = [] || name = ['.']

/-- The names of a path, without the idle ones. -/
def components (path : String) : List String :=
  ((path.toList.splitOn '/').filter fun n => !isIdle n).map String.ofList

/-- The components of a path as they are compared: the top that an absolute path starts from and the
dot in front of a relative one are among them. -/
def parts (path : String) : List String :=
  if isAbsolute path then "/" :: components path
  else if (path.toList.splitOn '/').head? = some ['.'] then "." :: components path
  else components path

/-- The names that lead on from `base`, if they begin with its own. -/
def below (base names : List String) : Option (List String) :=
  if base.isPrefixOf names then some (names.drop base.length) else none

/-- Holds of the paths that end in an idle name. Only a directory answers to them. -/
def endsIdle (path : String) : Bool :=
  (path.toList.splitOn '/').getLast?.any isIdle

/-- Holds of the paths that end in a dot. Only a directory that is there already answers to them. -/
def endsInDot (path : String) : Bool :=
  ((path.toList.splitOn '/').reverse.dropWhile (· = [])).head? = some ['.']

/-- Drops the idle names in front of a reversed list of names. -/
def dropIdle (names : List (List Char)) : List (List Char) :=
  names.dropWhile isIdle

/-- The directory that holds what a path names, as it is written in the path. -/
def parent (path : String) : String :=
  let front := (dropIdle (dropIdle (path.toList.splitOn '/').reverse).tail).reverse
  if front = [] && isAbsolute path then "/"
  else "/".intercalate (front.map String.ofList)

/-- What follows the last dot of a name; a dot in front opens no extension. -/
def afterLastDot : List Char → Option (List Char)
  | [] => none
  | c :: cs => (afterLastDot cs).or (if c = '.' then some cs else none)

def extension? (name : String) : Option String :=
  match name.toList with
  | [] => none
  | _ :: cs => (afterLastDot cs).map String.ofList

end ScriptBindings.Path
