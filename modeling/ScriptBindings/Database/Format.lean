import ScriptBindings.Database.Basic
import ScriptBindings.Entity.Format

namespace ScriptBindings.Database

open Reading (RecordField readCatalog readRecord)

def document (db : Database) : Document :=
  .record [("namespaces", .ofCatalog NamespaceInfo.document db.namespaces),
    ("classes", .ofCatalog Class.document db.classes),
    ("enums", .ofCatalog Enumeration.document db.enums),
    ("functions", .ofCatalog Callable.document db.functions),
    ("globals", .ofCatalog Global.document db.globals),
    ("typedefs", .ofCatalog Typedef.document db.typedefs)]

/-- The compact JSON text of a database. -/
def text (db : Database) : String := db.document.compact

def fields : List (RecordField Database) :=
  [.of "namespaces" (readCatalog NamespaceInfo.read) fun db c => { db with namespaces := c },
    .of "classes" (readCatalog (Class.read 2)) fun db c => { db with classes := c },
    .of "enums" (readCatalog Enumeration.read) fun db c => { db with enums := c },
    .of "functions" (readCatalog (Callable.read 2)) fun db c => { db with functions := c },
    .of "globals" (readCatalog Global.read) fun db c => { db with globals := c },
    .of "typedefs" (readCatalog Typedef.read) fun db c => { db with typedefs := c }]

def read : Reading → Except JsonFault Database := readRecord .malformed fields {}

/-- Only blanks may stand behind a value. -/
def endOfText : Option (List Char) → Except JsonFault Unit
  | none => .ok ()
  | some cs => if Lexeme.skipSpaces cs = [] then .ok () else .error .malformed

def parse (text : String) : Except JsonFault Database := do
  let step := Reading.ofText text
  let db ← read step.result
  endOfText step.rest
  .ok db

/-- Decodes the text of a database. -/
def ofText (text : String) : Except BindError Database :=
  (parse text).mapError .json

end ScriptBindings.Database
