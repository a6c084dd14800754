namespace ScriptBindings

inductive Document where
  | flag (value : Bool)
  | text (value : String)
  | list (items : List Document)
  | record (members : List (String × Document))
deriving Repr, Inhabited

namespace Document

/-- The lower-case hexadecimal digit of a number below sixteen. -/
def hexDigit (n : Nat) : Char :=
  if n < 10 then Char.ofNat ('0'.toNat + n) else Char.ofNat ('a'.toNat + (n - 10))

/-- The letters that stand for some characters after a backslash. -/
def shortEscapes : List (Char × Char) :=
  [('"', '"'), ('\\', '\\'), ('\x08', 'b'), ('\x0c', 'f'), ('\n', 'n'), ('\r', 'r'), ('\t', 't')]

/-- The spelling of a character inside a string; only what must be escaped is escaped. -/
def spellChar (c : Char) : List Char :=
  match shortEscapes.lookup c with
  | some letter => ['\\', letter]
  | none =>
    if c.toNat < 0x20 then
      ['\\', 'u', '0', '0', hexDigit (c.toNat / 16), hexDigit (c.toNat % 16)]
    else [c]

def spellString (s : String) : List Char :=
  '"' :: (s.toList.flatMap spellChar ++ ['"'])

mutual

def spell : Document → List Char
  | .flag value => if value then "true".toList else "false".toList
  | .text value => spellString value
  | .list items => '[' :: (spellItems items ++ [']'])
  | .record members => '\x7b' :: (spellMembers members ++ ['\x7d'])

/-- Items with commas between them. -/
def spellItems : List Document → List Char
  | [] => []
  | [item] => spell item
  | item :: items => spell item ++ ',' :: spellItems items

/-- Members with commas between them. -/
def spellMembers : List (String × Document) → List Char
  | [] => []
  | [(key, value)] => spellString key ++ ':' :: spell value
  | (key, value) :: members =>
    spellString key ++ ':' :: (spell value ++ ',' :: spellMembers members)

end

/-- The text of a document, without any blanks. -/
def compact (d : Document) : String :=
  String.ofList d.spell

end Document

end ScriptBindings
