import ScriptBindings.Dictionary
import ScriptBindings.Files.Path

namespace ScriptBindings

/-- The names on the way from the top of a tree. -/
abbrev Location := List String

namespace Location

def step (l : Location) (name : String) : Location :=
  if name = ".." then l.dropLast else l ++ [name]

/-- The locations on the way of some names, the last one included. -/
def trail (l : Location) : List String → List Location
  | [] => []
  | name :: names => step l name :: trail (step l name) names

/-- Names of files and directories have at most this many bytes. -/
def nameLimit : Nat := 255

def isValid (l : Location) : Bool := l.all fun name => name.utf8ByteSize ≤ nameLimit

/-- The order of locations, name by name. -/
def before : Location → Location → Bool
  | [], _ => true
  | _ :: _, [] => false
  | a :: l, b :: k => if a = b then before l k else a < b

end Location

/-- An entry that a walk visits, by the names that lead to it. What is not regular is a directory
or, like a socket, no file of text. -/
structure Visit where
  names : List String
  isRegular : Bool
deriving DecidableEq, Repr

def Visit.under (base : List String) (v : Visit) : Visit := { v with names := base ++ v.names }

structure FileTree where
  directories : List Location := []
  files : Dictionary Location String := .empty
  /-- Where paths start that are not absolute. -/
  workingDirectory : Location := []
deriving DecidableEq, Repr

namespace FileTree

def empty : FileTree := {}

instance : Inhabited FileTree := ⟨empty⟩

def isDirectory (t : FileTree) (l : Location) : Bool :=
  l = [] || l ∈ t.directories

def isFile (t : FileTree) (l : Location) : Bool :=
  l ∈ t.files.keys

def start (t : FileTree) (path : String) : Location :=
  if Path.isAbsolute path then [] else t.workingDirectory

/-- The locations that a path leads to, one after the other. -/
def visited (t : FileTree) (path : String) : List Location :=
  Location.trail (t.start path) (Path.components path)

/-- The location that a path names. -/
def locate (t : FileTree) (path : String) : Location :=
  (Path.components path).foldl Location.step (t.start path)

/-- The locations that must be directories for a path to lead to its last one. -/
def passed (t : FileTree) (path : String) : List Location :=
  if Path.endsIdle path then t.visited path else (t.visited path).dropLast

/-- Holds of the paths whose directories are all there. -/
def reaches (t : FileTree) (path : String) : Bool :=
  Path.isValid path && (t.passed path).all t.isDirectory

def exists? (t : FileTree) (path : String) : Bool :=
  t.reaches path && (t.isDirectory (t.locate path) || t.isFile (t.locate path))

/-- The text of the file at a path. -/
def read (t : FileTree) (path : String) : Except String String :=
  if t.reaches path then
    match t.files.get? (t.locate path) with
    | some text => .ok text
    | none => .error (if t.isDirectory (t.locate path) then "is a directory" else "no such file")
  else .error "no such directory"

/-- How an attempt to change a tree ended, and the tree after it. -/
abbrev Change := Except String Unit × FileTree

/-- Adds the directories of a trail that are missing, up to the first that cannot be added. -/
def addDirectories : List Location → FileTree → Change
  | [], t => (.ok (), t)
  | l :: ls, t =>
    if t.isDirectory l then addDirectories ls t
    else if t.isFile l then (.error "not a directory", t)
    else if l.isValid then addDirectories ls { t with directories := t.directories ++ [l] }
    else (.error "name too long", t)

/-- The locations of a path at which directories are created. -/
def newDirectories (path : String) (t : FileTree) : List Location :=
  if Path.endsInDot path then (t.visited path).dropLast else t.visited path

/-- Creates a directory and all those above it. What was created stays if a name on the way cannot
be a directory. -/
def makeDirectories (path : String) (t : FileTree) : Change :=
  if Path.isValid path then
    match addDirectories (t.newDirectories path) t with
    | (.ok (), t) =>
      (if t.isDirectory (t.locate path) then .ok () else .error "no such directory", t)
    | failed => failed
  else (.error "no valid path", t)

/-- Writes a file into an existing directory, replacing the file that may be there. -/
def write (path text : String) (t : FileTree) : Change :=
  let l := t.locate path
  if !t.reaches path then (.error "no such directory", t)
  else if t.isDirectory l then (.error "is a directory", t)
  else if l.isValid then (.ok (), { t with files := t.files.insert l text })
  else (.error "name too long", t)

/-- Removes what a path names, if it is there, with all below it. -/
def remove (path : String) (t : FileTree) : FileTree :=
  if t.exists? path then
    { t with
      directories := t.directories.filter fun l => !(t.locate path).isPrefixOf l
      files := t.files.filter fun l _ => !(t.locate path).isPrefixOf l }
  else t

/-- What is at a location and below it, by the names that lead there from the location. -/
def entriesBelow (t : FileTree) (l : Location) : List Visit :=
  ((([] :: t.directories).filterMap (Path.below l)).map fun names => ⟨names, false⟩) ++
    (t.files.keys.filterMap (Path.below l)).map fun names => ⟨names, true⟩

/-- The walk from a path on. The directories below it are opened by paths that begin with its own. -/
def walk (path : String) (t : FileTree) : Except String (List Visit) :=
  let l := t.locate path
  if (t.directories.filterMap (Path.below l)).all fun names =>
      Path.isValid (names.foldl Path.join path)
  then .ok (((t.entriesBelow l).mergeSort fun v v' => Location.before v.names v'.names).map
    (Visit.under (Path.parts path)))
  else .error "path too long"

/-- The paths of all files below a directory with their texts, ordered by their paths. -/
def listing (directory : Location) (t : FileTree) : List (String × String) :=
  (t.files.entries.filterMap fun e =>
    (Path.below directory e.1).map fun names => ("/".intercalate names, e.2)).mergeSort
      fun x y => decide (x.1 ≤ y.1)

end FileTree

end ScriptBindings
