import ScriptBindings.Decimal

namespace ScriptBindings.Toml

def isSpace (c : Char) : Bool := c == ' ' || c == '\t'

def skipSpaces (cs : List Char) : List Char := cs.dropWhile isSpace

/-- The characters that need no escape anywhere: all but the control characters, with the tab. -/
def isPlain (c : Char) : Bool :=
  c == '\t' || (0x20 ≤ c.toNat && c.toNat ≠ 0x7f)

def newline : List Char → Option (List Char)
  | '\n' :: cs => some cs
  | '\r' :: '\n' :: cs => some cs
  | _ => none

def skipNewline (cs : List Char) : List Char := (newline cs).getD cs

def skipComment : List Char → List Char
  | '#' :: cs => cs.dropWhile isPlain
  | cs => cs

/-- The end of a line: blanks, a comment and a newline, or the end of the text. -/
def lineEnd (cs : List Char) : Option (List Char) :=
  match skipComment (skipSpaces cs) with
  | [] => some []
  | cs => newline cs

def character (n : Nat) : Option Char :=
  if n.isValidChar then some (Char.ofNat n) else none

def isHexDigit (c : Char) : Bool :=
  c.isDigit || ('a' ≤ c && c ≤ 'f') || ('A' ≤ c && c ≤ 'F')

/-- The value of a digit, also of one beyond nine. -/
def digitValue (c : Char) : Nat :=
  if c.isDigit then c.toNat - '0'.toNat
  else if c.isUpper then c.toNat - 'A'.toNat + 10
  else c.toNat - 'a'.toNat + 10

def numeral (base : Nat) (digits : List Char) : Nat :=
  digits.foldl (fun n c => n * base + digitValue c) 0

/-- The character given by exactly `count` hexadecimal digits. -/
def hexEscape (count : Nat) (cs : List Char) : Option (Char × List Char) :=
  if (cs.take count).length = count && (cs.take count).all isHexDigit then
    (character (numeral 16 (cs.take count))).map fun c => (c, cs.drop count)
  else none

def shortEscapes : List (Char × Char) :=
  [('b', '\x08'), ('f', '\x0c'), ('n', '\n'), ('r', '\r'), ('t', '\t'), ('\\', '\\'), ('"', '"')]

/-- The character that stands behind a backslash. -/
def escape : List Char → Option (Char × List Char)
  | [] => none
  | 'u' :: cs => hexEscape 4 cs
  | 'U' :: cs => hexEscape 8 cs
  | letter :: cs => (shortEscapes.lookup letter).map fun c => (c, cs)

/-- Puts characters in front of what was read behind them. -/
def prepend (front : List Char) (read : Option (List Char × List Char)) :
    Option (List Char × List Char) :=
  read.map fun r => (front ++ r.1, r.2)

/-- A string between double quotes, behind the opening one. The fuel bounds its length. -/
def basicString : Nat → List Char → Option (List Char × List Char)
  | 0, _ => none
  | _ + 1, [] => none
  | fuel + 1, c :: cs =>
    if c = '"' then some ([], cs)
    else if c = '\\' then
      match escape cs with
      | some (c, cs) => prepend [c] (basicString fuel cs)
      | none => none
    else if isPlain c then prepend [c] (basicString fuel cs)
    else none

/-- A string between single quotes, behind the opening one. -/
def literalString : List Char → Option (List Char × List Char)
  | [] => none
  | c :: cs =>
    if c = '\'' then some ([], cs)
    else if isPlain c then prepend [c] (literalString cs)
    else none

def skipBlankLines : List Char → List Char
  | '\n' :: cs => skipBlankLines cs
  | '\r' :: '\n' :: cs => skipBlankLines cs
  | c :: cs => if isSpace c then skipBlankLines cs else c :: cs
  | [] => []

/-- The end of a line that a backslash hides inside a string, with the blanks that follow. -/
def hiddenNewline (cs : List Char) : Option (List Char) :=
  (newline (skipSpaces cs)).map skipBlankLines

/-- Three quotes close a block, and up to two more in front of them belong to it. -/
def closeBlock (quote : Char) (cs : List Char) : Option (List Char × List Char) :=
  let run := (cs.takeWhile (· = quote)).length
  if run < 3 then none
  else some (List.replicate (min (run - 3) 2) quote, cs.drop (3 + min (run - 3) 2))

/-- A string of several lines, behind its opening quotes. -/
def blockString (quote : Char) : Nat → List Char → Option (List Char × List Char)
  | 0, _ => none
  | _ + 1, [] => none
  | fuel + 1, c :: cs =>
    match closeBlock quote (c :: cs) with
    | some closed => some closed
    | none =>
      if c = '\\' && quote = '"' then
        match hiddenNewline cs with
        | some cs => blockString quote fuel cs
        | none =>
          match escape cs with
          | some (c, cs) => prepend [c] (blockString quote fuel cs)
          | none => none
      else
        match newline (c :: cs) with
        | some cs => prepend ['\n'] (blockString quote fuel cs)
        | none => if isPlain c then prepend [c] (blockString quote fuel cs) else none

/-- Any string. -/
def string (fuel : Nat) : List Char → Option (List Char × List Char)
  | '"' :: '"' :: '"' :: cs => blockString '"' fuel (skipNewline cs)
  | '\'' :: '\'' :: '\'' :: cs => blockString '\'' fuel (skipNewline cs)
  | '"' :: cs => basicString fuel cs
  | '\'' :: cs => literalString cs
  | _ => none

/-- More digits, with single underscores between them. -/
def moreDigits (isDigit : Char → Bool) : List Char → List Char × List Char
  | [] => ([], [])
  | c :: cs =>
    if isDigit c then
      (moreDigits isDigit cs).map (c :: ·) id
    else
      match c, cs with
      | '_', d :: ds =>
        if isDigit d then (moreDigits isDigit ds).map (d :: ·) id else ([], c :: cs)
      | _, _ => ([], c :: cs)

/-- Digits with single underscores between them. -/
def digits (isDigit : Char → Bool) : List Char → Option (List Char × List Char)
  | c :: cs => if isDigit c then some ((moreDigits isDigit cs).map (c :: ·) id) else none
  | [] => none

def isSign (c : Char) : Bool := c == '+' || c == '-'

def skipSign (cs : List Char) : List Char :=
  if cs.head?.any isSign then cs.tail else cs

/-- The digits of a decimal number, of which a leading zero stands alone. -/
def decimalDigits : List Char → Option (List Char × List Char)
  | '0' :: cs => some (['0'], cs)
  | cs => digits Char.isDigit cs

/-- Holds of the numbers that a signed word of 64 bits can hold. -/
def isWord (negative : Bool) (magnitude : Nat) : Bool :=
  if negative then magnitude ≤ Nat.pow 2 63 else magnitude < Nat.pow 2 63

/-- The end of a number in another base, behind its mark. -/
def basedInteger (base : Nat) (isDigit : Char → Bool) (cs : List Char) : Option (List Char) := do
  let read ← digits isDigit cs
  if isWord false (numeral base read.1) then some read.2 else none

/-- The end of an integer. -/
def integer : List Char → Option (List Char)
  | '0' :: 'x' :: cs => basedInteger 16 isHexDigit cs
  | '0' :: 'o' :: cs => basedInteger 8 (fun c => '0' ≤ c && c ≤ '7') cs
  | '0' :: 'b' :: cs => basedInteger 2 (fun c => c == '0' || c == '1') cs
  | cs => do
    let read ← decimalDigits (skipSign cs)
    if isWord (cs.head? == some '-') (numeral 10 read.1) then some read.2 else none

/-- The exponent of a number, behind its letter. -/
def exponent (cs : List Char) : Option (Int × List Char) := do
  let read ← digits Char.isDigit (skipSign cs)
  let size : Int := numeral 10 read.1
  some (if cs.head? = some '-' then -size else size, read.2)

def isExponentMark (c : Char) : Bool := c == 'e' || c == 'E'

/-- The end of a number with a fraction or an exponent, unless it is too large. -/
def float (cs : List Char) : Option (List Char) := do
  let whole ← decimalDigits (skipSign cs)
  let fraction ←
    match whole.2 with
    | '.' :: rest => digits Char.isDigit rest
    | rest => if rest.head?.any isExponentMark then some ([], rest) else none
  let power ←
    if fraction.2.head?.any isExponentMark then exponent fraction.2.tail
    else some (0, fraction.2)
  let scale := power.1 - fraction.1.length
  if cs.head? == some '-' || Decimal.isFinite (numeral 10 (whole.1 ++ fraction.1)) scale then
    some power.2
  else none

/-- The rest of a text behind a word. -/
def word (w : List Char) (cs : List Char) : Option (List Char) :=
  if w.isPrefixOf cs then some (cs.drop w.length) else none

/-- The end of a number that is none. -/
def specialFloat (cs : List Char) : Option (List Char) :=
  (word "inf".toList (skipSign cs)).or (word "nan".toList (skipSign cs))

/-- A number of exactly `count` digits between two bounds. -/
def fixedDigits (count low high : Nat) (cs : List Char) : Option (Nat × List Char) :=
  let n := numeral 10 (cs.take count)
  if (cs.take count).length = count && (cs.take count).all Char.isDigit && low ≤ n && n ≤ high then
    some (n, cs.drop count)
  else none

def daysOf (year month : Nat) : Nat :=
  if month = 2 then
    if year % 4 = 0 && (year % 100 ≠ 0 || year % 400 = 0) then 29 else 28
  else if month ∈ [4, 6, 9, 11] then 30
  else 31

/-- The end of a date of the Gregorian calendar. -/
def date (cs : List Char) : Option (List Char) := do
  let year ← fixedDigits 4 0 9999 cs
  let month ← (word ['-'] year.2).bind (fixedDigits 2 1 12)
  let day ← (word ['-'] month.2).bind (fixedDigits 2 1 (daysOf year.1 month.1))
  some day.2

/-- The end of a time of day; a minute may have a leap second. -/
def time (cs : List Char) : Option (List Char) := do
  let hour ← fixedDigits 2 0 23 cs
  let minute ← (word [':'] hour.2).bind (fixedDigits 2 0 59)
  let second ← (word [':'] minute.2).bind (fixedDigits 2 0 60)
  match second.2 with
  | '.' :: d :: rest => if d.isDigit then some (rest.dropWhile Char.isDigit) else some second.2
  | rest => some rest

/-- The end of the distance to universal time, if one is given. -/
def offset (cs : List Char) : Option (List Char) :=
  match cs with
  | [] => some []
  | c :: rest =>
    if c = 'Z' || c = 'z' then some rest
    else if isSign c then do
      let hour ← fixedDigits 2 0 23 rest
      let minute ← (word [':'] hour.2).bind (fixedDigits 2 0 59)
      some minute.2
    else some cs

/-- The end of a time behind a date, if one follows. -/
def timeOfDate (cs : List Char) : Option (List Char) :=
  match cs with
  | [] => some []
  | c :: rest =>
    if c = 'T' || c = 't' || c = ' ' then
      match time rest with
      | some rest => offset rest
      | none => some cs
    else some cs

def dateTime (cs : List Char) : Option (List Char) :=
  match date cs with
  | some rest => timeOfDate rest
  | none => time cs

/-- The end of a number, a date or a time. -/
def number (cs : List Char) : Option (List Char) :=
  (((dateTime cs).or (float cs)).or (specialFloat cs)).or (integer cs)

end ScriptBindings.Toml
