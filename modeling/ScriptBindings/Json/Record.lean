import ScriptBindings.Dictionary
import ScriptBindings.Json.Document
import ScriptBindings.Json.Reading

namespace ScriptBindings

namespace Reading

def readBool : Reading → Except JsonFault Bool
  | .bool value => .ok value
  | r => .error r.mismatch

def readString : Reading → Except JsonFault String
  | .string (some text) => .ok text
  | r => .error r.mismatch

/-- A text that may be absent, which null says too. -/
def readOptional : Reading → Except JsonFault (Option String)
  | .null => .ok none
  | r => r.readString.map some

/-- A container is complete unless it ended in a cut. -/
def close : Option Cut → Except JsonFault Unit
  | none => .ok ()
  | some place => .error place.fault

def readItems {α : Type} (read : Reading → Except JsonFault α) :
    List Reading → Except JsonFault (List α)
  | [] => .ok []
  | item :: items => do
    let a ← read item
    let as ← readItems read items
    .ok (a :: as)

def readList {α : Type} (read : Reading → Except JsonFault α) :
    Reading → Except JsonFault (List α)
  | .array items ending => do
    let as ← readItems read items
    close ending
    .ok as
  | r => .error r.mismatch

def readEntries {α : Type} (read : Reading → Except JsonFault α) :
    List (Option String × Reading) → Except JsonFault (List (String × α))
  | [] => .ok []
  | (none, _) :: _ => .error .malformed
  | (some key, value) :: members => do
    let a ← read value
    let entries ← readEntries read members
    .ok ((key, a) :: entries)

/-- An object whose keys are data: the last value of a key counts. -/
def readCatalog {α : Type} (read : Reading → Except JsonFault α) :
    Reading → Except JsonFault (Catalog α)
  | .object members ending => do
    let entries ← readEntries read members
    close ending
    .ok (.ofEntries entries)
  | r => .error r.mismatch

/-- A member of a record: its name, and how its value is read into the record. -/
structure RecordField (α : Type) where
  name : String
  store : α → Reading → Except JsonFault α

def RecordField.of {α β : Type} (name : String) (read : Reading → Except JsonFault β)
    (set : α → β → α) : RecordField α :=
  ⟨name, fun a r => (read r).map (set a)⟩

/-- Skips a value that is not needed. -/
def skip (r : Reading) : Except JsonFault Unit :=
  match r.skipFault with
  | none => .ok ()
  | some fault => .error fault

/-- Reads named members. One with an unknown name is skipped, and none may be repeated. -/
def readNamed {α : Type} (fields : List (RecordField α)) (seen : List String) (a : α) :
    List (Option String × Reading) → Except JsonFault α
  | [] => .ok a
  | (none, _) :: _ => .error .malformed
  | (some key, value) :: members =>
    match fields.find? fun f => f.name == key with
    | none => do
      value.skip
      readNamed fields seen a members
    | some field =>
      if key ∈ seen then .error .mismatched
      else do
        let next ← field.store a value
        readNamed fields (key :: seen) next members

/-- Reads members in the order of their fields; those at the end may be missing. -/
def readPositional {α : Type} (surplus : JsonFault) (ending : Option Cut) :
    List (RecordField α) → α → List Reading → Except JsonFault α
  | _, a, [] => do
    close ending
    .ok a
  | [], _, _ :: _ => .error surplus
  | field :: fields, a, item :: items => do
    let next ← field.store a item
    readPositional surplus ending fields next items

/-- Reads a record over its default. Too many items in a row are the fault `surplus`. -/
def readRecord {α : Type} (surplus : JsonFault) (fields : List (RecordField α)) (default : α) :
    Reading → Except JsonFault α
  | .object members ending => do
    let a ← readNamed fields [] default members
    close ending
    .ok a
  | .array items ending => readPositional surplus ending fields default items
  | r => .error r.mismatch

end Reading

namespace Document

def ofCatalog {α : Type} (write : α → Document) (c : Catalog α) : Document :=
  .record (c.entries.map fun e => (e.1, write e.2))

/-- A member that is left out when there is no text. -/
def optionalMember (key : String) : Option String → List (String × Document)
  | none => []
  | some value => [(key, .text value)]

end Document

end ScriptBindings
