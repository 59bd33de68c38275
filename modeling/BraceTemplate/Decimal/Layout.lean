import BraceTemplate.Decimal.Shortest

/-! # How a number is laid out

A layout says where positional notation ends and how the exponent is written.
-/
namespace BraceTemplate.Decimal

structure Layout where
  /-- Positional notation is used while the point lies within these bounds. -/
  lowestPoint : Int
  highestPoint : Int
  /-- What marks a number without a fraction in positional notation. -/
  wholeEnding : String
  /-- The least number of digits of an exponent. -/
  exponentDigits : Nat
  nan : String
  infinity : String

namespace Layout

def positional (layout : Layout) (number : Significant) : String :=
  let digits := number.digits
  let point := number.point
  if point ≤ 0 then
    "0." ++ String.ofList (List.replicate (-point).toNat '0' ++ digits)
  else if digits.length ≤ point.toNat then
    String.ofList (digits ++ List.replicate (point.toNat - digits.length) '0') ++ layout.wholeEnding
  else
    String.ofList (digits.take point.toNat ++ '.' :: digits.drop point.toNat)

def exponent (layout : Layout) (e : Int) : String :=
  let digits := Nat.toDigits 10 e.natAbs
  String.ofList ('e' :: (if e < 0 then '-' else '+') ::
    List.replicate (layout.exponentDigits - digits.length) '0' ++ digits)

def scientific (layout : Layout) (number : Significant) : String :=
  let mantissa := match number.digits with
    | d :: e :: rest => d :: '.' :: e :: rest
    | digits => digits
  String.ofList mantissa ++ layout.exponent (number.point - 1)

def write (layout : Layout) (x : Float) : String :=
  match Binary64.ofBits x.toBits with
  | .nan => layout.nan
  | .infinite negative => (if negative then "-" else "") ++ layout.infinity
  | .finite negative units =>
    (if negative then "-" else "") ++
      if units = 0 then "0" ++ layout.wholeEnding
      else
        let number := shortest x.toBits
        if layout.lowestPoint ≤ number.point ∧ number.point ≤ layout.highestPoint then
          layout.positional number
        else layout.scientific number

end Layout
end BraceTemplate.Decimal
