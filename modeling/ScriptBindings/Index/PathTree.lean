namespace ScriptBindings

inductive PathTree where
  | node (children : List (String × PathTree))
deriving Repr, BEq

namespace PathTree

def empty : PathTree := .node []

instance : Inhabited PathTree := ⟨empty⟩

def children : PathTree → List (String × PathTree)
  | .node cs => cs

def child? (segment : String) (t : PathTree) : Option PathTree :=
  (t.children.find? fun e => e.1 == segment).map Prod.snd

/-- Sets a child, keeping the children sorted by their names. -/
def setChild (segment : String) (child : PathTree) :
    List (String × PathTree) → List (String × PathTree)
  | [] => [(segment, child)]
  | e :: es =>
    if segment < e.1 then (segment, child) :: e :: es
    else if segment = e.1 then (segment, child) :: es
    else e :: setChild segment child es

/-- Adds a path with its prefixes, and says whether the last node of the path is new. -/
def insert : List String → PathTree → Bool × PathTree
  | [], t => (false, t)
  | s :: path, t =>
    let below := insert path ((t.child? s).getD empty)
    (if path = [] then (t.child? s).isNone else below.1, .node (setChild s below.2 t.children))

def contains : List String → PathTree → Bool
  | [], _ => true
  | s :: path, t =>
    match t.child? s with
    | some child => contains path child
    | none => false

end PathTree

end ScriptBindings
