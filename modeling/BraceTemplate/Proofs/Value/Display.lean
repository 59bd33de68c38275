import BraceTemplate.Value.Printer

/-! # Values without a text

The literal of a value always shows something, so only the empty text is displayed as nothing.
-/
namespace BraceTemplate

namespace Decimal.Layout

theorem positional_ne_empty (layout : Layout) (number : Significant)
    (h : layout.wholeEnding ≠ "") : layout.positional number ≠ "" := by
  unfold positional
  simp only
  split
  · simp
  · split
    · simp [h]
    · simp

theorem scientific_ne_empty (layout : Layout) (number : Significant) :
    layout.scientific number ≠ "" := by
  simp [scientific, exponent]

theorem write_ne_empty (layout : Layout) (x : Float) (hwhole : layout.wholeEnding ≠ "")
    (hnan : layout.nan ≠ "") (hinfinity : layout.infinity ≠ "") : layout.write x ≠ "" := by
  unfold write
  split
  · exact hnan
  · simp [hinfinity]
  · simp only [ne_eq, String.append_eq_empty_iff, not_and]
    intro _
    split
    · simp
    · split
      · exact layout.positional_ne_empty _ hwhole
      · exact layout.scientific_ne_empty _

end Decimal.Layout

namespace Value
open Decimal Text

theorem natText_ne_empty (n : Nat) : natText n ≠ "" := by
  simp [natText, Nat.toDigits_ne_nil]

theorem literal_ne_empty (value : Value) : value.literal ≠ "" := by
  cases value with
  | null => simp [literal]
  | bool b => cases b <;> simp [literal]
  | int n => simp [literal, intText, natText_ne_empty]
  | float x =>
    rw [literal]
    exact floatLayout.write_ne_empty x (by decide) (by decide) (by decide)
  | text s => simp [literal, quoted]
  | bytes data => simp [literal, quotedBytes]
  | list items => simp [literal]
  | tuple items => simp [literal]
  | map entries => simp [literal]
  | object fields => simp [literal]
  | method => simp [literal]

theorem eq_text_empty_of_display {value : Value} (h : value.display = "") : value = .text "" := by
  cases value with
  | text s => exact congrArg text h
  | _ => exact absurd h (literal_ne_empty _)

end Value
end BraceTemplate
