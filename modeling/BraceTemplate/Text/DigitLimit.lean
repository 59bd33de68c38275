/-! # Limits on digits

Numerals may be limited in length. One with more digits than the limit admits is neither read nor written,
and what would need it fails.
-/
namespace BraceTemplate

inductive DigitLimit where
  | unlimited
  | atMost (count : Nat)

namespace DigitLimit

/-- The limit that templates are rendered with unless it is lifted. -/
def standard : DigitLimit := atMost 4300

def admits : DigitLimit → Nat → Bool
  | unlimited, _ => true
  | atMost count, digits => digits ≤ count

@[simp] theorem admits_unlimited (digits : Nat) : unlimited.admits digits = true := rfl

end DigitLimit
end BraceTemplate
