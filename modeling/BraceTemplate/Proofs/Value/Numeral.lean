import BraceTemplate.Text.DecimalDigit
import BraceTemplate.Value.Printer
import Mathlib.Algebra.Group.Int.Defs
import Mathlib.Algebra.Group.Nat.Defs

/-! # Numbers written and read back

A natural number is written in ASCII digits, and these read back as the number.
-/
namespace BraceTemplate
open Text

theorem Text.digitValue?_of_isDigit {c : Char} (h : c.isDigit = true) :
    digitValue? c = some (c.toNat - '0'.toNat) := by
  obtain ⟨hlow, hhigh⟩ := Char.isDigit_iff_toNat.mp h
  have hlow : 0x30 ≤ c.toNat := hlow
  have hhigh : c.toNat < 0x30 + 10 := Nat.lt_succ_of_le hhigh
  rw [digitValue?, digitZeros, List.find?_cons_of_pos (by simp [hlow, hhigh])]
  rfl

theorem Text.foldl_pushDigit {cs : List Char} (h : ∀ c ∈ cs, c.isDigit = true) (n : Nat) :
    cs.foldl pushDigit (some n) = some (Nat.ofDigitChars 10 cs n) := by
  induction cs generalizing n with
  | nil => simp
  | cons c cs ih =>
    have hc := digitValue?_of_isDigit (h c List.mem_cons_self)
    have hpush : pushDigit (some n) c = some (10 * n + (c.toNat - '0'.toNat)) := by
      simp [pushDigit, hc]
    rw [List.foldl_cons, hpush, ih fun c hc => h c (List.mem_cons_of_mem _ hc),
      Nat.ofDigitChars_cons]

namespace Value

@[simp] theorem toList_natText (n : Nat) : (natText n).toList = Nat.toDigits 10 n :=
  String.toList_ofList

theorem isDigit_of_mem_natText {n : Nat} {c : Char} (h : c ∈ (natText n).toList) :
    c.isDigit = true := by
  rw [toList_natText] at h
  exact Nat.isDigit_of_mem_toDigits (by decide) (by decide) h

theorem readDecimal?_natText (n : Nat) : readDecimal? (natText n) = some n := by
  have hread : readDecimal? (natText n) = (natText n).toList.foldl pushDigit (some 0) := by
    unfold readDecimal?
    split
    · rename_i hnil
      exact absurd ((toList_natText n).symm.trans hnil) Nat.toDigits_ne_nil
    · rfl
  rw [hread, foldl_pushDigit (fun c hc => isDigit_of_mem_natText hc), toList_natText,
    Nat.ofDigitChars_ten_toDigits]

theorem display_natCast (n : Nat) : display (.int n) = natText n := by
  simp [display, literal, intText]

theorem fits_int_iff {count : Nat} (hcount : 0 < count) (n : Int) :
    (Value.int n).fits (.atMost count) = true ↔ n.natAbs < 10 ^ count := by
  rw [fits, DigitLimit.admits, decide_eq_true_iff, natText, String.length_ofList]
  exact Nat.length_toDigits_le_iff (by decide) hcount

theorem fits_pow_eq_false {count : Nat} (hcount : 0 < count) :
    (Value.int (10 ^ count)).fits (.atMost count) = false := by
  rw [Bool.eq_false_iff, ne_eq, fits_int_iff hcount, Int.natAbs_pow]
  exact Nat.lt_irrefl _

end Value
end BraceTemplate
