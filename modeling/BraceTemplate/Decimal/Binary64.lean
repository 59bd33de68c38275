/-! # Exact values of binary floating-point numbers

Every finite number of the format is a whole multiple of the least positive one, `2 ^ -1074`. The
view of a number gives its sign and this multiple, so that numbers are compared exactly.
-/
namespace BraceTemplate.Decimal

inductive Binary64
  | nan
  | infinite (negative : Bool)
  | finite (negative : Bool) (units : Nat)
deriving DecidableEq, Repr

namespace Binary64

def exponentField (bits : UInt64) : Nat := bits.toNat / Nat.pow 2 52 % Nat.pow 2 11

def fractionField (bits : UInt64) : Nat := bits.toNat % Nat.pow 2 52

/-- The distance to the next larger number, in units; numbers below the normal range are
one unit apart. -/
def spacing (bits : UInt64) : Nat := Nat.pow 2 (exponentField bits - 1)

def unitsOfBits (bits : UInt64) : Nat :=
  (fractionField bits + if exponentField bits = 0 then 0 else Nat.pow 2 52) * spacing bits

def ofBits (bits : UInt64) : Binary64 :=
  let negative := Nat.pow 2 63 ≤ bits.toNat
  if exponentField bits = 2047 then
    if fractionField bits = 0 then infinite negative else nan
  else finite negative (unitsOfBits bits)

def unitsPerOne : Nat := Nat.pow 2 1074

def isInt : Binary64 → Int → Bool
  | finite negative units, n =>
    units == n.natAbs * unitsPerOne && (n == 0 || negative == decide (n < 0))
  | _, _ => false

/-- Equality of numbers: both zeros are one number, and NaN equals nothing. -/
def sameNumber : Binary64 → Binary64 → Bool
  | finite n u, finite n' u' => u == u' && (u == 0 || n == n')
  | infinite n, infinite n' => n == n'
  | _, _ => false

def isZero : Binary64 → Bool
  | finite _ units => units == 0
  | _ => false

end Binary64
end BraceTemplate.Decimal
