import ScriptBindings.Decimal

namespace ScriptBindings

structure Magnitude where
  word : Nat
  scale : Int
deriving DecidableEq, Repr

namespace Magnitude

/-- Words are less than this. -/
def wordLimit : Nat := Nat.pow 2 64

/-- Puts digits behind those of a word as long as they fit, and gives those that do not. -/
def fill (word : Nat) : List Char → Nat × List Char
  | [] => (word, [])
  | c :: cs =>
    let longer := 10 * word + (c.toNat - '0'.toNat)
    if longer < wordLimit then fill longer cs else (word, c :: cs)

/-- The magnitude of a number with an exponent. A digit that the word has no room for counts as a
zero in front of the point, and not at all behind it. -/
def ofDigits (integer fraction : List Char) (exponent : Int) : Magnitude :=
  let whole := fill 0 integer
  let all := fill whole.1 fraction
  ⟨all.1, exponent + whole.2.length - (fraction.length - all.2.length : Nat)⟩

/-- Holds if the product of a word and a power of ten is a finite double. Both are rounded to
doubles before they are multiplied, and 308 is the last power that is one. -/
def isFinite (m : Magnitude) : Bool :=
  m.word = 0 || m.scale ≤ 0 ||
    (m.scale ≤ 308 &&
      Decimal.nearest m.word * Decimal.nearest (Nat.pow 10 m.scale.toNat) < Decimal.overflow)

end Magnitude

end ScriptBindings
