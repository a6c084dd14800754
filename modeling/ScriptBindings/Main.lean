import ScriptBindings.CommandLine

namespace ScriptBindings

/-- Turns an exception into its text. -/
def attemptAction {α : Type} (action : IO α) : IO (Except String α) := do
  try
    let a ← action
    return .ok a
  catch e => return .error (toString e)

/-- Visits what is at a path, and all below it if it is a directory. -/
partial def walkFrom (path : String) (names : List String) (type : IO.FS.FileType) :
    IO (List Visit) := do
  let visit : Visit := ⟨names, type == .file⟩
  if type == .dir then
    let entries ← (System.mkFilePath [path]).readDir
    let sorted := entries.toList.mergeSort fun x y => decide (x.fileName ≤ y.fileName)
    let nested ← sorted.mapM fun entry => do
      let information ← entry.path.symlinkMetadata
      walkFrom (Path.join path entry.fileName) (names ++ [entry.fileName]) information.type
    return visit :: nested.flatten
  else return [visit]

def machineStorage : Storage IO where
  makeDirectories path :=
    attemptAction (if path = "" then pure () else IO.FS.createDirAll (System.mkFilePath [path]))
  write path text := attemptAction (IO.FS.writeFile (System.mkFilePath [path]) text)
  read path := attemptAction (IO.FS.readFile (System.mkFilePath [path]))
  exists? path := (System.mkFilePath [path]).pathExists
  walk path := attemptAction do
    let information ← (System.mkFilePath [path]).metadata
    walkFrom path (Path.parts path) information.type

def Level.word : Level → String
  | .debug => "DEBUG"
  | .info => "INFO"
  | .warning => "WARN"

/-- Prints the events of a run, except those that only help to find faults. -/
def printEvents (events : List Event) : IO Unit :=
  events.forM fun e =>
    if e.level = .debug then pure () else IO.eprintln (e.level.word ++ " " ++ e.message)

def usage : String := "Usage: cppbind <COMMAND>\n\nFor more information, try '--help'.\n"

end ScriptBindings

open ScriptBindings in
def main (arguments : List String) : IO UInt32 := do
  let environment ← IO.getEnv Configuration.outputVariable
  let ended ← CommandLine.run machineStorage environment arguments
  printEvents ended.1
  match ended.2 with
  | .done output => IO.print output
  | .failed failure => IO.eprint failure.report
  | .misused => IO.eprint usage
  return UInt32.ofNat ended.2.code
