import BraceTemplate.Table.Basic

/-! # Looking up names in tables

A table made of entries finds the last entry of a name, and layers without a name hide nothing.
-/
namespace BraceTemplate.Table
variable {α : Type}

theorem find?_foldl_insert (entries : List (String × Entry α)) (table : Table α) (name : String) :
    (entries.foldl (fun table entry => table.insert entry.1 entry.2) table).find? name =
      (entries.reverse.lookup name).or (table.find? name) := by
  induction entries generalizing table with
  | nil => rfl
  | cons entry entries ih =>
    rw [List.foldl_cons, ih, find?_insert, List.reverse_cons, List.lookup_append, Option.or_assoc]
    by_cases h : entry.1 = name
    · subst h
      rw [List.lookup_cons_self, if_pos rfl]
      rfl
    · have hne : (name == entry.1) = false := by simpa using Ne.symm h
      rw [List.lookup_cons, hne, if_neg h]
      rfl

theorem find?_ofEntries (entries : List (String × Entry α)) (name : String) :
    (ofEntries entries).find? name = entries.reverse.lookup name := by
  rw [ofEntries, find?_foldl_insert, find?_empty, Option.or_none]

end BraceTemplate.Table
