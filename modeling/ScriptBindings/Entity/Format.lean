import ScriptBindings.Entity.Basic
import ScriptBindings.Json.Record

namespace ScriptBindings

open Reading (RecordField readBool readString readOptional readList readCatalog readRecord)

namespace Flags

def document (f : Flags) : Document := .record [("nobind", .flag f.nobind)]

def read (surplus : JsonFault) : Reading → Except JsonFault Flags :=
  readRecord surplus [.of "nobind" readBool fun f b => { f with nobind := b }] {}

end Flags

namespace Parameter

def document (p : Parameter) : Document :=
  .record ([("name", .text p.name), ("type", .text p.type)] ++
    Document.optionalMember "default" p.default)

def fields : List (RecordField Parameter) :=
  [.of "name" readString fun p s => { p with name := s },
    .of "type" readString fun p s => { p with type := s },
    .of "default" readOptional fun p s => { p with default := s }]

def read (surplus : JsonFault) : Reading → Except JsonFault Parameter :=
  readRecord surplus fields {}

end Parameter

namespace Signature

def members (s : Signature) : List (String × Document) :=
  [("name", .text s.name), ("return_type", .text s.returnType),
    ("parameters", .list (s.parameters.map Parameter.document)),
    ("qualifiers", .list (s.qualifiers.map .text)), ("location", .text s.location),
    ("static", .flag s.isStatic), ("flags", s.flags.document)]

def document (s : Signature) : Document := .record s.members

def fields (surplus : JsonFault) : List (RecordField Signature) :=
  [.of "name" readString fun x s => { x with name := s },
    .of "return_type" readString fun x s => { x with returnType := s },
    .of "parameters" (readList (Parameter.read surplus)) fun x ps => { x with parameters := ps },
    .of "qualifiers" (readList readString) fun x qs => { x with qualifiers := qs },
    .of "location" readString fun x s => { x with location := s },
    .of "static" readBool fun x b => { x with isStatic := b },
    .of "flags" (Flags.read surplus) fun x f => { x with flags := f }]

def read (surplus : JsonFault) : Reading → Except JsonFault Signature :=
  readRecord surplus (fields surplus) {}

end Signature

namespace OverloadSet

def members (o : OverloadSet) : List (String × Document) :=
  [("name", .text o.name), ("overloads", .list (o.overloads.map Signature.document)),
    ("flags", o.flags.document)]

def fields (surplus : JsonFault) : List (RecordField OverloadSet) :=
  [.of "name" readString fun o s => { o with name := s },
    .of "overloads" (readList (Signature.read surplus)) fun o ss => { o with overloads := ss },
    .of "flags" (Flags.read surplus) fun o f => { o with flags := f }]

def read (surplus : JsonFault) : Reading → Except JsonFault OverloadSet :=
  readRecord surplus (fields surplus) {}

end OverloadSet

namespace Callable

def document : Callable → Document
  | .single s => .record (("kind", .text "function") :: s.members)
  | .overloaded o => .record (("kind", .text "function_overload") :: o.members)

/-- The two kinds of callables. -/
inductive Form where
  | single
  | overloaded

def Form.read (r : Reading) : Except JsonFault Form :=
  match r.readString with
  | .ok word =>
    if word = "function" then .ok .single
    else if word = "function_overload" then .ok .overloaded
    else .error .mismatched
  | .error fault => .error fault

/-- Reads a callable once its kind is known. What does not fit is then a mismatch. -/
def Form.readRest (r : Reading) : Form → Except JsonFault Callable
  | .single => (Signature.read .mismatched r).map .single
  | .overloaded => (OverloadSet.read .mismatched r).map .overloaded

/-- Keeps a value until the kind is known. -/
def keep (depth : Nat) (r : Reading) : Except JsonFault Unit :=
  match r.keepFault depth with
  | none => .ok ()
  | some fault => .error fault

/-- Finds the kind among the members of an object, and checks what has to be kept until then. -/
def findForm (depth : Nat) (found : Option Form) :
    List (Option String × Reading) → Except JsonFault (Option Form)
  | [] => .ok found
  | (none, _) :: _ => .error .malformed
  | (some key, value) :: members =>
    if key = "kind" then
      match found with
      | some _ => .error .mismatched
      | none => do
        let form ← Form.read value
        findForm depth (some form) members
    else do
      keep depth value
      findForm depth found members

/-- The members that are kept: all but the kind. -/
def kept (members : List (Option String × Reading)) : List (Option String × Reading) :=
  members.filter fun m => m.1 ≠ some "kind"

/-- Reads a callable that lies below `depth` containers. -/
def read (depth : Nat) : Reading → Except JsonFault Callable
  | .object members ending => do
    let form ← findForm (depth + 1) none members
    Reading.close ending
    match form with
    | some form => form.readRest (.object (kept members) none)
    | none => .error .mismatched
  | .array [] ending => do
    Reading.close ending
    .error .mismatched
  | .array (first :: items) ending => do
    let form ← Form.read first
    items.forM (keep (depth + 1))
    Reading.close ending
    form.readRest (.array items none)
  | r => .error r.mismatch

end Callable

namespace Global

def document (g : Global) : Document :=
  .record [("name", .text g.name), ("type", .text g.type), ("initializer", .text g.initializer),
    ("location", .text g.location), ("flags", g.flags.document)]

def fields : List (RecordField Global) :=
  [.of "name" readString fun g s => { g with name := s },
    .of "type" readString fun g s => { g with type := s },
    .of "initializer" readString fun g s => { g with initializer := s },
    .of "location" readString fun g s => { g with location := s },
    .of "flags" (Flags.read .malformed) fun g f => { g with flags := f }]

def read : Reading → Except JsonFault Global := readRecord .malformed fields {}

end Global

namespace EnumValue

def document (v : EnumValue) : Document :=
  .record (("name", .text v.name) :: Document.optionalMember "description" v.description)

/-- A value whose name may still be missing. -/
structure Draft where
  name : Option String := none
  description : Option String := none

def Draft.finish (d : Draft) : Except JsonFault EnumValue :=
  match d.name with
  | some name => .ok ⟨name, d.description⟩
  | none => .error .mismatched

def fields : List (RecordField Draft) :=
  [.of "name" readString fun d s => { d with name := some s },
    .of "description" readOptional fun d s => { d with description := s }]

def read (r : Reading) : Except JsonFault EnumValue := do
  let draft ← readRecord .malformed fields {} r
  draft.finish

end EnumValue

namespace Enumeration

def document (e : Enumeration) : Document :=
  .record [("name", .text e.name), ("values", .list (e.values.map EnumValue.document)),
    ("location", .text e.location), ("flags", e.flags.document)]

def fields : List (RecordField Enumeration) :=
  [.of "name" readString fun e s => { e with name := s },
    .of "values" (readList EnumValue.read) fun e vs => { e with values := vs },
    .of "location" readString fun e s => { e with location := s },
    .of "flags" (Flags.read .malformed) fun e f => { e with flags := f }]

def read : Reading → Except JsonFault Enumeration := readRecord .malformed fields {}

end Enumeration

namespace Attribute

def document (a : Attribute) : Document :=
  .record [("name", .text a.name), ("type", .text a.type), ("static", .flag a.isStatic),
    ("flags", a.flags.document)]

def fields : List (RecordField Attribute) :=
  [.of "name" readString fun a s => { a with name := s },
    .of "type" readString fun a s => { a with type := s },
    .of "static" readBool fun a b => { a with isStatic := b },
    .of "flags" (Flags.read .malformed) fun a f => { a with flags := f }]

def read : Reading → Except JsonFault Attribute := readRecord .malformed fields {}

end Attribute

namespace Class

def document (c : Class) : Document :=
  .record [("name", .text c.name), ("bases", .list (c.bases.map .text)),
    ("abstract", .flag c.isAbstract),
    ("constructors", .list (c.constructors.map Signature.document)),
    ("methods", .ofCatalog Callable.document c.methods),
    ("attributes", .ofCatalog Attribute.document c.attributes), ("location", .text c.location),
    ("flags", c.flags.document)]

def fields (depth : Nat) : List (RecordField Class) :=
  [.of "name" readString fun c s => { c with name := s },
    .of "bases" (readList readString) fun c bs => { c with bases := bs },
    .of "abstract" readBool fun c b => { c with isAbstract := b },
    .of "constructors" (readList (Signature.read .malformed)) fun c ss =>
      { c with constructors := ss },
    .of "methods" (readCatalog (Callable.read (depth + 2))) fun c ms => { c with methods := ms },
    .of "attributes" (readCatalog Attribute.read) fun c as => { c with attributes := as },
    .of "location" readString fun c s => { c with location := s },
    .of "flags" (Flags.read .malformed) fun c f => { c with flags := f }]

/-- Reads a class that lies below `depth` containers. -/
def read (depth : Nat) : Reading → Except JsonFault Class :=
  readRecord .malformed (fields depth) {}

end Class

namespace Typedef

def document (t : Typedef) : Document :=
  .record [("name", .text t.name), ("type", .text t.type), ("location", .text t.location),
    ("flags", t.flags.document)]

def fields : List (RecordField Typedef) :=
  [.of "name" readString fun t s => { t with name := s },
    .of "type" readString fun t s => { t with type := s },
    .of "location" readString fun t s => { t with location := s },
    .of "flags" (Flags.read .malformed) fun t f => { t with flags := f }]

def read : Reading → Except JsonFault Typedef := readRecord .malformed fields {}

end Typedef

namespace NamespaceInfo

def document (n : NamespaceInfo) : Document :=
  .record [("additional_includes", .list (n.additionalIncludes.map .text)),
    ("description", .text n.description)]

def fields : List (RecordField NamespaceInfo) :=
  [.of "additional_includes" (readList readString) fun n is => { n with additionalIncludes := is },
    .of "description" readString fun n s => { n with description := s }]

def read : Reading → Except JsonFault NamespaceInfo := readRecord .malformed fields {}

end NamespaceInfo

end ScriptBindings
