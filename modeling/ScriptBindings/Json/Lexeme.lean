import ScriptBindings.Error
import ScriptBindings.Json.Magnitude

namespace ScriptBindings

/-- Where a text stops being JSON: the fault for a reader that needs the value, and the fault
for one that skips it. -/
structure Cut where
  fault : JsonFault
  whenSkipped : JsonFault
deriving DecidableEq, Repr

def Cut.both (fault : JsonFault) : Cut := ⟨fault, fault⟩

namespace Lexeme

def isSpace (c : Char) : Bool :=
  c == ' ' || c == '\t' || c == '\n' || c == '\r'

def skipSpaces (cs : List Char) : List Char := cs.dropWhile isSpace

/-- Reads the rest of a word. -/
def word : List Char → List Char → Except JsonFault (List Char)
  | [], cs => .ok cs
  | _ :: _, [] => .error .truncated
  | w :: ws, c :: cs => if c = w then word ws cs else .error .malformed

/-- A sequence of digits that must not be empty. A reader that skips numbers takes the end of the
text for a character that is no digit. -/
def digits (cs : List Char) : Except Cut (List Char × List Char) :=
  if cs.takeWhile Char.isDigit = [] then
    .error ⟨if cs = [] then .truncated else .malformed, .malformed⟩
  else .ok (cs.takeWhile Char.isDigit, cs.dropWhile Char.isDigit)

/-- The digits in front of the point: a leading zero stands alone. -/
def integerDigits (cs : List Char) : Except Cut (List Char × List Char) := do
  let integer ← digits cs
  if integer.1.head? = some '0' && integer.1.length > 1 then .error (.both .malformed)
  else .ok integer

def fractionDigits : List Char → Except Cut (List Char × List Char)
  | '.' :: cs => digits cs
  | cs => .ok ([], cs)

def isSign (c : Char) : Bool := c == '+' || c == '-'

/-- The exponent with its sign, zero if there is none. -/
def exponent : List Char → Except Cut (Int × List Char)
  | [] => .ok (0, [])
  | e :: cs =>
    if e = 'e' || e = 'E' then do
      let magnitude ← digits (if cs.head?.any isSign then cs.tail else cs)
      let size : Int := Nat.ofDigitChars 10 magnitude.1 0
      .ok (if cs.head? = some '-' then -size else size, magnitude.2)
    else .ok (0, e :: cs)

/-- Reads a number behind its sign, and says whether it is finite. -/
def number (cs : List Char) : Except Cut (Bool × List Char) := do
  let integer ← integerDigits cs
  let fraction ← fractionDigits integer.2
  let power ← exponent fraction.2
  .ok ((Magnitude.ofDigits integer.1 fraction.1 power.1).isFinite, power.2)

/-- The characters that a letter stands for after a backslash. -/
def shortEscapes : List (Char × Char) :=
  [('"', '"'), ('\\', '\\'), ('/', '/'), ('b', '\x08'), ('f', '\x0c'), ('n', '\n'), ('r', '\r'),
    ('t', '\t')]

def hexValue (c : Char) : Option Nat :=
  if c.isDigit then some (c.toNat - '0'.toNat)
  else if 'a' ≤ c && c ≤ 'f' then some (c.toNat - 'a'.toNat + 10)
  else if 'A' ≤ c && c ≤ 'F' then some (c.toNat - 'A'.toNat + 10)
  else none

def hexUnit (a b c d : Char) : Option Nat := do
  let a ← hexValue a
  let b ← hexValue b
  let c ← hexValue c
  let d ← hexValue d
  some (((a * 16 + b) * 16 + c) * 16 + d)

/-- The fault of a `\u` whose four digits are not all there. -/
def shortUnitFault (cs : List Char) : JsonFault :=
  if (String.ofList cs).utf8ByteSize < 4 then .truncated else .malformed

/-- Puts a unit in front of what was read behind it. -/
def consUnit (unit : Nat) (scanned : List Nat × Except JsonFault (List Char)) :
    List Nat × Except JsonFault (List Char) :=
  (unit :: scanned.1, scanned.2)

/-- Reads a string behind its opening quote: the code points and surrogate halves that it spells,
and what follows the closing quote. -/
def units : List Char → List Nat × Except JsonFault (List Char)
  | [] => ([], .error .truncated)
  | c :: cs =>
    if c = '"' then ([], .ok cs)
    else if c = '\\' then
      match cs with
      | [] => ([], .error .truncated)
      | 'u' :: cs =>
        match cs with
        | a :: b :: c :: d :: cs =>
          match hexUnit a b c d with
          | some unit => consUnit unit (units cs)
          | none => ([], .error .malformed)
        | cs => ([], .error (shortUnitFault cs))
      | letter :: cs =>
        match shortEscapes.lookup letter with
        | some c => consUnit c.toNat (units cs)
        | none => ([], .error .malformed)
    else if c.toNat < 0x20 then ([], .error .malformed)
    else consUnit c.toNat (units cs)

def isHighHalf (unit : Nat) : Bool := 0xd800 ≤ unit && unit < 0xdc00

def isLowHalf (unit : Nat) : Bool := 0xdc00 ≤ unit && unit < 0xe000

/-- Joins the halves of surrogate pairs, if every half has its other half behind it. -/
def joinUnits : List Nat → Option (List Char)
  | [] => some []
  | unit :: units =>
    if isHighHalf unit then
      match units with
      | low :: units =>
        if isLowHalf low then
          (joinUnits units).map
            (Char.ofNat (0x10000 + (unit - 0xd800) * 0x400 + (low - 0xdc00)) :: ·)
        else none
      | [] => none
    else if isLowHalf unit then none
    else (joinUnits units).map (Char.ofNat unit :: ·)

/-- The units up to a fault, without a last half that could still have been completed. -/
def settledUnits (units : List Nat) : List Nat :=
  if units.getLast?.any isHighHalf then units.dropLast else units

/-- Reads a string behind its opening quote; none stands for a text with half a surrogate pair. -/
def string (cs : List Char) : Except Cut (Option String × List Char) :=
  let scanned := units cs
  match scanned.2 with
  | .ok rest => .ok ((joinUnits scanned.1).map String.ofList, rest)
  | .error fault =>
    .error ⟨if (joinUnits (settledUnits scanned.1)).isSome then fault else .malformed, fault⟩

end Lexeme

end ScriptBindings
