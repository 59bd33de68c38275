import BraceTemplate.Proofs.Tree.Reading
import Mathlib.Data.List.Infix

/-! # Balanced braces

Braces are balanced when no prefix closes more groups than it opens and the whole text closes as many
as it opens. The reader accepts just the balanced templates: it fails where a prefix closes too many,
and at the end if groups are still open.
-/
namespace BraceTemplate

/-- Whether the characters close `opened` groups, and all groups that they open themselves. -/
structure Text.Closes (opened : Nat) (cs : List Char) : Prop where
  within : ∀ before, before <+: cs → before.count '\x7d' ≤ opened + before.count '\x7b'
  total : cs.count '\x7d' = opened + cs.count '\x7b'

structure Text.Balanced (text : String) : Prop where
  within : ∀ before, before <+: text.toList → before.count '\x7d' ≤ before.count '\x7b'
  total : text.toList.count '\x7d' = text.toList.count '\x7b'

namespace Text

theorem closes_zero_iff {text : String} : Closes 0 text.toList ↔ Balanced text := by
  constructor
  · rintro ⟨hwithin, htotal⟩
    exact ⟨fun before h => by simpa using hwithin before h, by simpa using htotal⟩
  · rintro ⟨hwithin, htotal⟩
    exact ⟨fun before h => by simpa using hwithin before h, by simpa using htotal⟩

theorem closes_nil_iff {opened : Nat} : Closes opened [] ↔ opened = 0 := by
  constructor
  · intro h
    simpa using h.total.symm
  · rintro rfl
    exact ⟨fun before h => by simp [List.prefix_nil.mp h], rfl⟩

theorem closes_cons_iff (opened next : Nat) {c : Char} {cs : List Char}
    (h : next + [c].count '\x7d' = opened + [c].count '\x7b') :
    Closes opened (c :: cs) ↔ Closes next cs := by
  have hcount (d : Char) (before : List Char) :
      (c :: before).count d = [c].count d + before.count d := by
    rw [← List.count_append]
    rfl
  have hopens := hcount '\x7b' cs
  have hcloses := hcount '\x7d' cs
  constructor
  · rintro ⟨hwithin, htotal⟩
    refine ⟨fun before hb => ?_, by omega⟩
    have hle := hwithin (c :: before) (List.cons_prefix_cons.mpr ⟨rfl, hb⟩)
    have hopens := hcount '\x7b' before
    have hcloses := hcount '\x7d' before
    omega
  · rintro ⟨hwithin, htotal⟩
    refine ⟨fun before hb => ?_, by omega⟩
    cases before with
    | nil => simp
    | cons d before =>
      obtain ⟨rfl, hb'⟩ := List.cons_prefix_cons.mp hb
      have hle := hwithin before hb'
      have hopens := hcount '\x7b' before
      have hcloses := hcount '\x7d' before
      omega

end Text

namespace Reader
open Text

theorem exists_read_iff {reader : Reader} {cs : List Char} :
    (∃ tree, reader.read cs = .ok tree) ↔ Closes reader.outer.length cs := by
  induction cs generalizing reader with
  | nil =>
    rw [closes_nil_iff, List.length_eq_zero_iff, read, finish]
    cases reader.outer <;> simp
  | cons c cs ih =>
    obtain ⟨offset, current, outer⟩ := reader
    by_cases hopen : c = '\x7b'
    · subst hopen
      rw [read, step, if_pos rfl]
      simp only
      rw [ih, closes_cons_iff _ (outer.length + 1) (by simp)]
      rfl
    by_cases hclose : c = '\x7d'
    · subst hclose
      cases outer with
      | nil =>
        have hnot : ¬ Closes 0 ('\x7d' :: cs) := by
          intro h
          simpa using h.within ['\x7d'] (by simp)
        simpa [read, step] using hnot
      | cons parent outer =>
        rw [read, step, if_neg hopen, if_pos rfl]
        simp only
        rw [ih, closes_cons_iff _ outer.length (by simp)]
    · rw [read, step, if_neg hopen, if_neg hclose]
      simp only
      rw [ih, closes_cons_iff _ outer.length (by simp [hopen, hclose])]

end Reader

namespace Group
open Text

theorem exists_parse_iff {source : String} :
    (∃ tree, parse source = .ok tree) ↔ Balanced source := by
  rw [parse, Reader.exists_read_iff, ← closes_zero_iff]
  rfl

theorem BraceFree.balanced {tree : Group} (h : tree.BraceFree) : Balanced tree.innerSource :=
  exists_parse_iff.mp ⟨tree, parse_innerSource h⟩

end Group
end BraceTemplate
