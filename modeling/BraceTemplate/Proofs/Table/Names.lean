import BraceTemplate.Table.Basic
import Mathlib.Data.String.Basic
import Mathlib.Order.Compare

/-! # The names of a table

A table lists each name that it has once, by increasing code points.
-/
namespace BraceTemplate

/-- The code points of a text, which tell how names are ordered. -/
def Text.codePoints (text : String) : List Nat := text.toList.map Char.toNat

theorem Text.codePoints_lt_iff {a b : String} : codePoints a < codePoints b ↔ a < b := by
  have hmap (cs ds : List Char) : cs.map Char.toNat < ds.map Char.toNat ↔ cs < ds := by
    induction cs generalizing ds with
    | nil => cases ds <;> simp
    | cons c cs ih =>
      cases ds with
      | nil => simp
      | cons d ds =>
        have hlt : c.toNat < d.toNat ↔ c < d := Iff.rfl
        simp only [List.map_cons, List.cons_lt_cons_iff, ih, hlt, Char.toNat_inj]
  rw [codePoints, codePoints, hmap, String.lt_iff]

namespace Table
variable {α : Type}

theorem has_iff_mem_names {table : Table α} {name : String} :
    table.has name = true ↔ name ∈ table.names := by
  rw [has, names, Std.TreeMap.mem_keys, Std.TreeMap.contains_iff_mem]

theorem pairwise_names (table : Table α) :
    table.names.Pairwise fun a b => Text.codePoints a < Text.codePoints b :=
  Std.TreeMap.ordered_keys.imp fun h => Text.codePoints_lt_iff.mpr (compare_lt_iff_lt.mp h)

end Table
end BraceTemplate
