import ScriptBindings.Files.Tree
import ScriptBindings.Run

namespace ScriptBindings

structure Storage (m : Type → Type) where
  makeDirectories (path : String) : m (Except String Unit)
  write (path text : String) : m (Except String Unit)
  read (path : String) : m (Except String String)
  exists? (path : String) : m Bool
  /-- What is at a path and below it, a directory before the entries in it and these in the order of
  their names. A visit leads to its entry by the parts of the path and the names below it. -/
  walk (path : String) : m (Except String (List Visit))

namespace FileTree

def storage : Storage (StateM FileTree) where
  makeDirectories path := fun t => t.makeDirectories path
  write path text := fun t => t.write path text
  read path := fun t => (t.read path, t)
  exists? path := fun t => (t.exists? path, t)
  walk path := fun t => (t.walk path, t)

end FileTree

namespace Storage

variable {m : Type → Type} {α : Type} [Monad m]

/-- An operation whose failure is blamed on the file at `path`. -/
def attempt (path : String) (x : m (Except String α)) : Task m α :=
  (x >>= fun outcome => pure (Run.ofExcept (outcome.mapError (BindError.file path))) : m (Run α))

/-- Writes a file, in directories that are created if necessary. -/
def save (storage : Storage m) (path text : String) : Task m Unit := do
  attempt (Path.parent path) (storage.makeDirectories (Path.parent path))
  attempt path (storage.write path text)

def load (storage : Storage m) (path : String) : Task m String :=
  attempt path (storage.read path)

end Storage

end ScriptBindings
