namespace ScriptBindings.Decimal

/-- The least number that rounds to an infinite double. -/
def overflow : Nat := Nat.pow 2 1024 - Nat.pow 2 970

/-- The double nearest to a whole number below the overflow. Its binary digits from the 54th on are
zeros, and of two doubles equally near the one with an even 53rd digit is taken. -/
def nearest (n : Nat) : Nat :=
  let unit := Nat.pow 2 (n.log2 + 1 - 53)
  let below := n / unit * unit
  if 2 * (n - below) < unit || (2 * (n - below) = unit && n / unit % 2 = 0) then below
  else below + unit

/-- Holds of the numbers `mantissa · 10 ^ scale` that round to a finite double. Those with fewer
than 309 places in front of the point are small enough, and those with more are not. -/
def isFinite (mantissa : Nat) (scale : Int) : Bool :=
  let places : Int := (Nat.toDigits 10 mantissa).length
  if mantissa = 0 || places + scale < 309 then true
  else if 309 < places + scale then false
  else if 0 ≤ scale then mantissa * Nat.pow 10 scale.toNat < overflow
  else mantissa < overflow * Nat.pow 10 (-scale).toNat

end ScriptBindings.Decimal
