import BraceTemplate.Decimal.Binary64

/-! # The fewest digits that read back

Each finite number owns the interval of reals that round to it, ends included when its fraction is
even. The number is written with the fewest significant digits that some decimal in this interval
has, and of two such decimals with the nearer one, an even last digit deciding a tie.
-/
namespace BraceTemplate.Decimal

/-- A positive number between the ends of its interval, all in quarters of the least unit. -/
structure RoundingInterval where
  low : Nat
  value : Nat
  high : Nat
  closed : Bool

def quartersPerOne : Nat := 4 * Binary64.unitsPerOne

/-- The gap below a power of two is half the gap above it. -/
def RoundingInterval.ofBits (bits : UInt64) : RoundingInterval :=
  let value := 4 * Binary64.unitsOfBits bits
  let gap := Binary64.spacing bits
  let fraction := Binary64.fractionField bits
  let below := if fraction = 0 ∧ 1 < Binary64.exponentField bits then gap else 2 * gap
  ⟨value - below, value, value + 2 * gap, fraction % 2 == 0⟩

/-- Significant digits and the place of the point: `0.d₁d₂… · 10 ^ point`. -/
structure Significant where
  digits : List Char
  point : Int
deriving DecidableEq, Repr

/-- How many zeros follow the point of `value / one` below a tenth. -/
def leadingZeros (one : Nat) : (fuel : Nat) → (value : Nat) → Nat
  | 0, _ => 0
  | fuel + 1, value =>
    if value * 10 < one then leadingZeros one fuel (value * 10) + 1 else 0

/-- The point that puts the first significant digit right behind it. No number of the format
starts with more than 323 zeros. -/
def pointOf (value : Nat) : Int :=
  if quartersPerOne ≤ value then (Nat.toDigits 10 (value / quartersPerOne)).length
  else -(leadingZeros quartersPerOne 330 value)

/-- The decimal with `count` digits that the interval holds, if it holds one. -/
def RoundingInterval.onGrid? (i : RoundingInterval) (point : Int) (count : Nat) : Option Nat :=
  let up := Nat.pow 10 (count - point).toNat
  let one := quartersPerOne * Nat.pow 10 (point - count).toNat
  let holds (d : Nat) : Bool :=
    if i.closed then i.low * up ≤ d * one && d * one ≤ i.high * up
    else i.low * up < d * one && d * one < i.high * up
  let d := i.value * up / one
  let rest := i.value * up % one
  match holds d, holds (d + 1) with
  | true, true =>
    if 2 * rest < one then some d
    else if one < 2 * rest then some (d + 1)
    else if d % 2 = 0 then some d else some (d + 1)
  | true, false => some d
  | false, true => some (d + 1)
  | false, false => none

def RoundingInterval.search (i : RoundingInterval) (point : Int) :
    (fuel : Nat) → (count : Nat) → Nat × Nat
  | 0, count => (i.value * Nat.pow 10 (count - point).toNat / quartersPerOne, count)
  | fuel + 1, count =>
    match i.onGrid? point count with
    | some d => (d, count)
    | none => i.search point fuel (count + 1)

def dropTrailingZeros (digits : List Char) : List Char :=
  (digits.reverse.dropWhile (· == '0')).reverse

/-- The significant digits of a positive finite number; seventeen always suffice. -/
def shortest (bits : UInt64) : Significant :=
  let i := RoundingInterval.ofBits bits
  let point := pointOf i.value
  let (d, count) := i.search point 17 1
  let digits := Nat.toDigits 10 d
  ⟨dropTrailingZeros digits, point + (digits.length - count)⟩

end BraceTemplate.Decimal
