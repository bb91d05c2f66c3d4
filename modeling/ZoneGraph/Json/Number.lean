import ZoneGraph.Data
import ZoneGraph.Text.Decimal

/-! Numbers in JSON text. A number that is no whole number of 64 bits is a float, and it
is read in two rounded steps: the digits that fit in 64 bits, then a power of ten. A
number is beyond all floats when these steps end beyond them, which for a few numbers
close to the last float is not what its exact value says. -/
namespace ZoneGraph.Json

/-! ### Floats -/

/-- A number as a product of some digits and a power of ten. -/
structure Scaled where
  digits : Nat
  exponent : Int
  deriving DecidableEq

namespace Scaled

/-- The number with one more digit, if it still has 64 bits. -/
def addDigit? (n : Nat) (digit : Char) : Option Nat :=
  let longer := 10 * n + Text.valueIn 10 [digit]
  if longer < Nat.pow 2 64 then some longer else none

/-- Adds the digits of a whole number as long as they fit. The others count as powers of
ten, and their number comes second. -/
def addWhole (n : Nat) : List Char → Nat × Nat
  | [] => (n, 0)
  | digit :: rest =>
    match addDigit? n digit with
    | some longer => addWhole longer rest
    | none => (n, rest.length + 1)

/-- Adds the digits of a fraction as long as they fit. The others are dropped; the number
of those added comes second. -/
def addFraction (n : Nat) : List Char → Nat × Nat
  | [] => (n, 0)
  | digit :: rest =>
    match addDigit? n digit with
    | some longer => ((addFraction longer rest).1, (addFraction longer rest).2 + 1)
    | none => (n, 0)

/-- The product for the digits before and after a point, and an exponent. -/
def ofDecimal (whole fraction : List Char) (exponent : Int) : Scaled :=
  let (n, beyond) := addWhole 0 whole
  let (n, added) := addFraction n fraction
  ⟨n, exponent + beyond - added⟩

/-- The whole number of at most 53 binary digits before its zeros that is closest to the
given one, and even in its last digit when two are equally close. -/
def rounded (n : Nat) : Nat :=
  let unit := Nat.pow 2 (n.log2 + 1 - 53)
  let half := 2 * (n % unit)
  if half < unit ∨ (half = unit ∧ n / unit % 2 = 0) then n / unit * unit else (n / unit + 1) * unit

/-- Whether the product of the rounded factors is no larger than the last float, when
it is rounded itself. -/
def isFinite (scaled : Scaled) : Bool :=
  if scaled.digits = 0 ∨ scaled.exponent < 0 then true
  else if 308 < scaled.exponent then false
  else
    rounded scaled.digits * rounded (Nat.pow 10 scaled.exponent.toNat) <
      Nat.pow 2 1024 - Nat.pow 2 970

end Scaled

/-! ### Reading -/

def spanDigits (text : List Char) : List Char × List Char := text.span Char.isDigit

/-- The part of a number after its integer: digits after a point and an exponent, both
optional. -/
structure Tail where
  fraction : List Char := []
  exponent : Option Int := none

def readExponent : List Char → Option (Option Int × List Char)
  | c :: rest =>
    if c = 'e' ∨ c = 'E' then
      let (negative, rest) :=
        match rest with
        | '-' :: rest => (true, rest)
        | '+' :: rest => (false, rest)
        | rest => (false, rest)
      match spanDigits rest with
      | ([], _) => none
      | (digits, rest) =>
        some (some (if negative then -(Text.valueIn 10 digits : Int) else Text.valueIn 10 digits), rest)
    else some (none, c :: rest)
  | [] => some (none, [])

def readTail : List Char → Option (Tail × List Char)
  | '.' :: rest =>
    match spanDigits rest with
    | ([], _) => none
    | (fraction, rest) => (readExponent rest).map fun read => (⟨fraction, read.1⟩, read.2)
  | rest => (readExponent rest).map fun read => (⟨[], read.1⟩, read.2)

/-- The value of a number. Whole numbers of up to 64 bits are kept as such; other
numbers have only their text, unless they are beyond all floats. -/
def numberOf (negative : Bool) (digits : List Char) (tail : Tail) (text : List Char) : Data :=
  let magnitude := Text.valueIn 10 digits
  let small := if negative then 0 < magnitude ∧ magnitude ≤ Nat.pow 2 63 else magnitude < Nat.pow 2 64
  if tail.fraction.isEmpty ∧ tail.exponent.isNone ∧ small then
    .int (if negative then -(magnitude : Int) else magnitude)
  else if (Scaled.ofDecimal digits tail.fraction (tail.exponent.getD 0)).isFinite then
    .real (String.ofList text)
  else .broken

def readNumber (negative : Bool) (text : List Char) : Option (Data × List Char) :=
  match spanDigits text with
  | ([], _) => none
  | ('0' :: _ :: _, _) => none
  | (digits, rest) =>
    (readTail rest).map fun read =>
      (numberOf negative digits read.1 (text.take (text.length - read.2.length)), read.2)

end ZoneGraph.Json
