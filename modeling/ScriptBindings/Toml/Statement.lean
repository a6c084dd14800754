import ScriptBindings.Toml.Lexeme
import ScriptBindings.Toml.Table

namespace ScriptBindings.Toml

/-- Values and keys may be nested less deep than this. -/
def nestingLimit : Nat := 80

def isKeyChar (c : Char) : Bool := c.isAlphanum || c == '_' || c == '-'

def simpleKey (fuel : Nat) (cs : List Char) : Option (String × List Char) :=
  let read :=
    match cs with
    | '"' :: cs => basicString fuel cs
    | '\'' :: cs => literalString cs
    | cs =>
      if cs.takeWhile isKeyChar = [] then none
      else some (cs.takeWhile isKeyChar, cs.dropWhile isKeyChar)
  read.map fun r => (String.ofList r.1, skipSpaces r.2)

/-- The parts of a key between its dots. -/
def keyParts : Nat → List Char → Option (List String × List Char)
  | 0, _ => none
  | fuel + 1, cs =>
    match simpleKey fuel (skipSpaces cs) with
    | none => none
    | some (part, '.' :: cs) => (keyParts fuel cs).map fun r => (part :: r.1, r.2)
    | some (part, cs) => some ([part], cs)

def key (fuel : Nat) (cs : List Char) : Option (List String × List Char) :=
  (keyParts fuel cs).filter fun r => r.1.length < nestingLimit

/-- Blanks, comments and newlines, which may stand between the items of an array. -/
def skipLines : Nat → List Char → List Char
  | 0, cs => cs
  | fuel + 1, cs =>
    match newline (skipComment (skipSpaces cs)) with
    | some cs => skipLines fuel cs
    | none => skipSpaces cs

/-- Text or not, as far as a value is looked at. -/
abbrev Value := Option String

mutual

/-- Reads a value below `depth` arrays and inline tables. -/
def value : Nat → Nat → List Char → Option (Value × List Char)
  | 0, _, _ => none
  | fuel + 1, depth, cs =>
    match cs with
    | [] => none
    | c :: rest =>
      if c = '"' || c = '\'' then
        (string (fuel + 1) cs).map fun r => (some (String.ofList r.1), r.2)
      else if c = '[' then
        if depth + 1 < nestingLimit then (items fuel (depth + 1) rest).map fun r => (none, r)
        else none
      else if c = '\x7b' then
        if depth + 1 < nestingLimit then (pairs fuel (depth + 1) rest).map fun r => (none, r)
        else none
      else if c = 't' then (word "true".toList cs).map fun r => (none, r)
      else if c = 'f' then (word "false".toList cs).map fun r => (none, r)
      else (number cs).map fun r => (none, r)

/-- The end of an array, behind its bracket. -/
def items : Nat → Nat → List Char → Option (List Char)
  | 0, _, _ => none
  | fuel + 1, depth, cs =>
    match skipLines (fuel + 1) cs with
    | ']' :: cs => some cs
    | cs =>
      match value fuel depth cs with
      | none => none
      | some (_, cs) =>
        match skipLines (fuel + 1) cs with
        | ']' :: cs => some cs
        | ',' :: cs => items fuel depth cs
        | _ => none

/-- The end of an inline table, behind its brace. -/
def pairs : Nat → Nat → List Char → Option (List Char)
  | 0, _, _ => none
  | fuel + 1, depth, cs =>
    match skipSpaces cs with
    | '\x7d' :: cs => some cs
    | cs => nextPair fuel depth [] cs

/-- The end of an inline table, behind the pairs that are held by `table`. -/
def nextPair : Nat → Nat → Table → List Char → Option (List Char)
  | 0, _, _, _ => none
  | fuel + 1, depth, table, cs =>
    match key fuel cs with
    | some (path, '=' :: cs) =>
      match value fuel depth (skipSpaces cs) with
      | none => none
      | some (value, cs) =>
        match Table.assign path value table with
        | none => none
        | some table =>
          match skipSpaces cs with
          | '\x7d' :: cs => some cs
          | ',' :: cs => nextPair fuel depth table cs
          | _ => none
    | _ => none

end

inductive Statement where
  | header (path : List String)
  | arrayHeader (path : List String)
  | assign (path : List String) (value : Value)
deriving Repr

/-- A header behind its opening brackets. -/
def header (fuel : Nat) (closing : List Char) (make : List String → Statement) (cs : List Char) :
    Option (Statement × List Char) := do
  let path ← key fuel cs
  let rest ← word closing path.2
  let rest ← lineEnd rest
  some (make path.1, rest)

def assignment (fuel : Nat) (cs : List Char) : Option (Statement × List Char) := do
  let path ← key fuel cs
  let rest ← word ['='] path.2
  let read ← value fuel 0 (skipSpaces rest)
  let rest ← lineEnd read.2
  some (.assign path.1 read.1, rest)

def statement (fuel : Nat) : List Char → Option (Statement × List Char)
  | '[' :: '[' :: cs => header fuel "]]".toList .arrayHeader cs
  | '[' :: cs => header fuel "]".toList .header cs
  | cs => assignment fuel cs

/-- Reads the statements of a text, one a line; lines without any are skipped. -/
def statements : Nat → List Char → Option (List Statement)
  | 0, _ => none
  | fuel + 1, cs =>
    match lineEnd cs with
    | some [] => some []
    | some cs => statements fuel cs
    | none => do
      let read ← statement (fuel + 1) (skipSpaces cs)
      let rest ← statements fuel read.2
      some (read.1 :: rest)

/-- A byte order mark may stand in front of a text. -/
def skipMark : List Char → List Char
  | '\ufeff' :: cs => cs
  | cs => cs

/-- The tables filled so far, and the header whose table takes the assignments. -/
structure Progress where
  current : List String := []
  top : Table := []

def Progress.step (p : Progress) : Statement → Option Progress
  | .header path => (p.top.openPath Table.openKey path).map fun t => ⟨path, t⟩
  | .arrayHeader path => (p.top.openPath Table.openArrayKey path).map fun t => ⟨path, t⟩
  | .assign path value => (p.top.within (Table.assign path value) p.current).map fun t =>
    { p with top := t }

/-- Reads a text as the table of its top level. -/
def parse (text : String) : Option Table := do
  let statements ← statements (3 * text.length + 3) (skipMark text.toList)
  let progress ← statements.foldlM Progress.step {}
  some progress.top

end ScriptBindings.Toml
