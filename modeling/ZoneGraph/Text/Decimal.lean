/-! Numbers written in decimal digits, and the bound of floats of 64 bits. -/
namespace ZoneGraph.Text

/-- The value of a digit in base sixteen, in either case. -/
def hexValue? (c : Char) : Option Nat :=
  if '0' ≤ c ∧ c ≤ '9' then some (c.toNat - '0'.toNat)
  else if 'a' ≤ c ∧ c ≤ 'f' then some (c.toNat - 'a'.toNat + 10)
  else if 'A' ≤ c ∧ c ≤ 'F' then some (c.toNat - 'A'.toNat + 10)
  else none

/-- The number that some digits write in a base, the digits being of that base. -/
def valueIn (base : Nat) (digits : List Char) : Nat :=
  digits.foldl (fun n c => base * n + (hexValue? c).getD 0) 0

/-- Whether a number times a power of ten is below the first one that rounds to
infinity among floats of 64 bits. -/
def isFinite (n : Nat) (exponent : Int) : Bool :=
  if n = 0 then true
  else
    let size : Int := (Nat.toDigits 10 n).length + exponent
    if size < 300 then true
    else if 320 < size then false
    else
      let limit : Nat := Nat.pow 2 1024 - Nat.pow 2 970
      if 0 ≤ exponent then n * Nat.pow 10 exponent.toNat < limit
      else n < limit * Nat.pow 10 (-exponent).toNat

end ZoneGraph.Text
