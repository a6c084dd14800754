import ScriptBindings.Index.PathTree
import ScriptBindings.Run

namespace ScriptBindings.TableOrder

/-- The tables declared so far, as a tree and in the order of their declaration. -/
structure Declared where
  tree : PathTree := .empty
  tables : List (List String) := []

/-- Shorter paths first, equally long ones in their old order. -/
def byDepth (tables : List (List String)) : List (List String) :=
  tables.mergeSort fun s t => s.length ≤ t.length

/-- The paths strictly between the root and a table, from the shortest to the longest. -/
def ancestors (table : List String) : List (List String) :=
  (List.range' 1 (table.length - 1)).map table.take

/-- Declares a path unless it is there already, and says whether it was new. -/
def Declared.add (d : Declared) (path : List String) : Bool × Declared :=
  let inserted := d.tree.insert path
  (inserted.1, ⟨inserted.2, if inserted.1 then d.tables ++ [path] else d.tables⟩)

/-- Declares the ancestors of `table` that are missing, and reports each. -/
def addAncestors (table : List String) : List (List String) → Declared → Run Declared
  | [], d => Run.ok d
  | a :: rest, d => do
    let added := d.add a
    if added.1 then Run.report (.tableAdded a table)
    addAncestors table rest added.2

def addTables : List (List String) → Declared → Run Declared
  | [], d => Run.ok d
  | t :: ts, d => do
    let withAncestors ← addAncestors t (ancestors t) d
    addTables ts (withAncestors.add t).2

/-- The tables with every missing ancestor, sorted by depth. -/
def complete (tables : List (List String)) : Run (List (List String)) := do
  let d ← addTables (byDepth tables) {}
  Run.ok (byDepth d.tables)

end ScriptBindings.TableOrder
