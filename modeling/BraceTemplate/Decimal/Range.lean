/-! # Decimals too large for a floating-point number

A decimal that lies half a step or more above the largest finite number rounds to infinity.
-/
namespace BraceTemplate.Decimal

/-- The least integer that rounds to infinity. -/
def overflowThreshold : Nat := Nat.pow 2 1024 - Nat.pow 2 970

def overflowDigits : Int := 309

def overflows (digits : Nat) (exponent : Int) : Bool :=
  let point := (Nat.toDigits 10 digits).length + exponent
  if digits = 0 ∨ point < overflowDigits then false
  else if overflowDigits < point then true
  else overflowThreshold * Nat.pow 10 (-exponent).toNat ≤ digits * Nat.pow 10 exponent.toNat

end BraceTemplate.Decimal
