import ScriptBindings.Json.Lexeme

namespace ScriptBindings

/-- A value as it was read. An array or object that is not closed ends in a cut, and a string with
half a surrogate pair has no text. -/
inductive Reading where
  | null
  | bool (value : Bool)
  | number (finite : Bool)
  | string (text : Option String)
  | array (items : List Reading) (ending : Option Cut)
  | object (members : List (Option String × Reading)) (ending : Option Cut)
  | cut (place : Cut)
deriving Inhabited

namespace Reading

/-- What was read, with the characters behind it unless the text was cut. -/
structure Step (α : Type) where
  result : α
  rest : Option (List Char)

namespace Step

def cutAt (place : Cut) : Step Reading := ⟨.cut place, none⟩

def ofLexeme {α : Type} (make : α → Reading) : Except Cut (α × List Char) → Step Reading
  | .ok (value, rest) => ⟨make value, some rest⟩
  | .error place => cutAt place

def ofWord (value : Reading) : Except JsonFault (List Char) → Step Reading
  | .ok rest => ⟨value, some rest⟩
  | .error fault => cutAt (.both fault)

/-- Puts a member in front of those behind it. -/
def cons {α : Type} (a : α) (s : Step (List α × Option Cut)) : Step (List α × Option Cut) :=
  ⟨(a :: s.result.1, s.result.2), s.rest⟩

/-- Nothing more, up to a fault. -/
def ending {α : Type} (fault : JsonFault) : Step (List α × Option Cut) :=
  ⟨([], some (.both fault)), none⟩

def array (s : Step (List Reading × Option Cut)) : Step Reading :=
  ⟨.array s.result.1 s.result.2, s.rest⟩

def object (s : Step (List (Option String × Reading) × Option Cut)) : Step Reading :=
  ⟨.object s.result.1 s.result.2, s.rest⟩

end Step

/-- A value that neither opens a container nor a string. -/
def scalar (c : Char) (cs : List Char) : Step Reading :=
  if c = 'n' then .ofWord .null (Lexeme.word "ull".toList cs)
  else if c = 't' then .ofWord (.bool true) (Lexeme.word "rue".toList cs)
  else if c = 'f' then .ofWord (.bool false) (Lexeme.word "alse".toList cs)
  else if c = '-' then .ofLexeme .number (Lexeme.number cs)
  else if c.isDigit then .ofLexeme .number (Lexeme.number (c :: cs))
  else .cutAt (.both .malformed)

mutual

/-- Reads a value. The fuel bounds the steps from here; three for each character are enough. -/
def value : Nat → List Char → Step Reading
  | 0, _ => .cutAt (.both .malformed)
  | fuel + 1, cs =>
    match Lexeme.skipSpaces cs with
    | [] => .cutAt (.both .truncated)
    | c :: cs =>
      if c = '"' then .ofLexeme .string (Lexeme.string cs)
      else if c = '[' then (items fuel cs).array
      else if c = '\x7b' then (members fuel cs).object
      else scalar c cs

/-- Reads the items of an array behind its bracket. -/
def items : Nat → List Char → Step (List Reading × Option Cut)
  | 0, _ => .ending .malformed
  | fuel + 1, cs =>
    match Lexeme.skipSpaces cs with
    | [] => .ending .truncated
    | c :: rest =>
      if c = ']' then ⟨([], none), some rest⟩ else nextItem fuel (c :: rest)

/-- Reads an item and those behind it. -/
def nextItem : Nat → List Char → Step (List Reading × Option Cut)
  | 0, _ => .ending .malformed
  | fuel + 1, cs =>
    let item := value fuel cs
    match item.rest with
    | none => ⟨([item.result], none), none⟩
    | some cs =>
      match Lexeme.skipSpaces cs with
      | [] => .cons item.result (.ending .truncated)
      | c :: rest =>
        .cons item.result
          (if c = ']' then ⟨([], none), some rest⟩
           else if c = ',' then nextItem fuel rest
           else .ending .malformed)

/-- Reads the members of an object behind its brace. -/
def members : Nat → List Char → Step (List (Option String × Reading) × Option Cut)
  | 0, _ => .ending .malformed
  | fuel + 1, cs =>
    match Lexeme.skipSpaces cs with
    | [] => .ending .truncated
    | c :: rest =>
      if c = '\x7d' then ⟨([], none), some rest⟩ else nextMember fuel (c :: rest)

/-- Reads a member and those behind it. -/
def nextMember : Nat → List Char → Step (List (Option String × Reading) × Option Cut)
  | 0, _ => .ending .malformed
  | fuel + 1, cs =>
    match Lexeme.skipSpaces cs with
    | [] => .ending .truncated
    | c :: cs =>
      if c = '"' then
        match Lexeme.string cs with
        | .error place => ⟨([], some place), none⟩
        | .ok (key, cs) =>
          let read := memberValue fuel cs
          match read.rest with
          | none => ⟨([(key, read.result)], none), none⟩
          | some cs =>
            match Lexeme.skipSpaces cs with
            | [] => .cons (key, read.result) (.ending .truncated)
            | c :: rest =>
              .cons (key, read.result)
                (if c = '\x7d' then ⟨([], none), some rest⟩
                 else if c = ',' then nextMember fuel rest
                 else .ending .malformed)
      else .ending .malformed

/-- Reads the value of a member behind its key. -/
def memberValue : Nat → List Char → Step Reading
  | 0, _ => .cutAt (.both .malformed)
  | fuel + 1, cs =>
    match Lexeme.skipSpaces cs with
    | [] => .cutAt (.both .truncated)
    | c :: cs => if c = ':' then value fuel cs else .cutAt (.both .malformed)

end

/-- Reads the first value of a text. -/
def ofText (text : String) : Step Reading :=
  value (3 * text.length + 3) text.toList

/-- The fault of a value that is needed in another form. -/
def mismatch : Reading → JsonFault
  | .cut place => place.fault
  | .string none => .malformed
  | .number false => .malformed
  | _ => .mismatched

mutual

/-- The fault of a value that is skipped, wherever it stands inside. -/
def skipFault : Reading → Option JsonFault
  | .cut place => some place.whenSkipped
  | .array items ending => (skipItems items).or (ending.map Cut.whenSkipped)
  | .object members ending => (skipMembers members).or (ending.map Cut.whenSkipped)
  | _ => none

def skipItems : List Reading → Option JsonFault
  | [] => none
  | item :: items => item.skipFault.or (skipItems items)

def skipMembers : List (Option String × Reading) → Option JsonFault
  | [] => none
  | (_, value) :: members => value.skipFault.or (skipMembers members)

end

/-- Containers may be nested this deep in a value that is kept for later. -/
def nestingLimit : Nat := 127

mutual

/-- The first fault of a value that is kept for later, below `depth` containers. -/
def keepFault (depth : Nat) : Reading → Option JsonFault
  | .array items ending =>
    if nestingLimit ≤ depth then some .malformed
    else (keepItems (depth + 1) items).or (ending.map Cut.fault)
  | .object members ending =>
    if nestingLimit ≤ depth then some .malformed
    else (keepMembers (depth + 1) members).or (ending.map Cut.fault)
  | .cut place => some place.fault
  | .string none => some .malformed
  | .number false => some .malformed
  | _ => none

def keepItems (depth : Nat) : List Reading → Option JsonFault
  | [] => none
  | item :: items => (item.keepFault depth).or (keepItems depth items)

def keepMembers (depth : Nat) : List (Option String × Reading) → Option JsonFault
  | [] => none
  | (none, _) :: _ => some .malformed
  | (some _, value) :: members => (value.keepFault depth).or (keepMembers depth members)

end

end Reading

end ScriptBindings
