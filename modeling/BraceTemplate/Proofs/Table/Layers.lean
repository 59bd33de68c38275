import BraceTemplate.Proofs.Table.Lookup
import BraceTemplate.Proofs.Table.Names
import Mathlib.Data.List.Induction

/-! # Tables in front of each other

Of several tables, each in front of those before it, the last that has a name decides what the name is
bound to. A table merges them if it has just their names, bound in this way, as the tables do that are put
together layer by layer and the one that is put together from all entries at once.
-/
namespace BraceTemplate.Table
variable {α : Type}

theorem mem_names_iff {table : Table α} {name : String} :
    name ∈ table.names ↔ ∃ entry, table.find? name = some entry := by
  rw [← has_iff_mem_names, has, Std.TreeMap.contains_eq_isSome_getElem?, Option.isSome_iff_exists]
  rfl

theorem find?_eq_none_iff {table : Table α} {name : String} :
    table.find? name = none ↔ name ∉ table.names := by
  rw [mem_names_iff, not_exists, Option.eq_none_iff_forall_ne_some]

/-- Whether the last of the tables that have the name binds it to the entry. -/
def Frontmost (tables : List (Table α)) (name : String) (entry : Entry α) : Prop :=
  ∃ behind table front, tables = behind ++ table :: front ∧ table.find? name = some entry ∧
    ∀ other ∈ front, name ∉ other.names

theorem not_frontmost_nil {name : String} {entry : Entry α} : ¬ Frontmost [] name entry := by
  rintro ⟨behind, table, front, htables, -⟩
  simp at htables

theorem frontmost_concat {tables : List (Table α)} {table : Table α} {name : String}
    {entry : Entry α} : Frontmost (tables ++ [table]) name entry ↔
      table.find? name = some entry ∨ table.find? name = none ∧ Frontmost tables name entry := by
  constructor
  · rintro ⟨behind, decisive, front, htables, hfind, hfront⟩
    rcases List.eq_nil_or_concat front with rfl | ⟨middle, last, rfl⟩
    · obtain ⟨-, hlast⟩ := List.append_inj' htables rfl
      cases hlast
      exact .inl hfind
    · rw [List.concat_eq_append, ← List.cons_append, ← List.append_assoc] at htables
      obtain ⟨rfl, hlast⟩ := List.append_inj' htables rfl
      cases hlast
      refine .inr ⟨find?_eq_none_iff.mpr (hfront table (by simp)), behind, decisive, middle, rfl, hfind, ?_⟩
      exact fun other hother => hfront other (by simp [hother])
  · rintro (hfind | ⟨hnone, behind, decisive, front, rfl, hfind, hfront⟩)
    · exact ⟨tables, table, [], rfl, hfind, List.forall_mem_nil _⟩
    · refine ⟨behind, decisive, front ++ [table], by simp, hfind, ?_⟩
      intro other hother
      rcases List.mem_append.mp hother with hold | hlast
      · exact hfront other hold
      · rw [List.mem_singleton.mp hlast]
        exact find?_eq_none_iff.mp hnone

theorem exists_frontmost_iff {tables : List (Table α)} {name : String} :
    (∃ entry, Frontmost tables name entry) ↔ ∃ table ∈ tables, name ∈ table.names := by
  induction tables using List.reverseRecOn with
  | nil => simp [not_frontmost_nil]
  | append_singleton tables table ih =>
    have hconcat : (∃ other ∈ tables ++ [table], name ∈ other.names) ↔
        (∃ other ∈ tables, name ∈ other.names) ∨ name ∈ table.names := by
      simp [or_and_right, exists_or]
    rw [hconcat, ← ih]
    by_cases hname : name ∈ table.names
    · obtain ⟨entry, hfind⟩ := mem_names_iff.mp hname
      exact iff_of_true ⟨entry, frontmost_concat.mpr (.inl hfind)⟩ (.inr hname)
    · have hnone := find?_eq_none_iff.mpr hname
      simp [frontmost_concat, hnone, hname]

theorem exists_frontmost_or (tables : List (Table α)) (name : String) :
    (∃ entry, Frontmost tables name entry) ∨ ∀ table ∈ tables, name ∉ table.names := by
  rw [exists_frontmost_iff]
  exact (em _).imp_right fun h table htable hname => h ⟨table, htable, hname⟩

/-- Whether a table has the names of the tables and no others, and each name is bound as the last of the
tables that have it binds it. -/
structure Merges (merged : Table α) (tables : List (Table α)) : Prop where
  mem_names : ∀ name, name ∈ merged.names ↔ ∃ table ∈ tables, name ∈ table.names
  find?_eq : ∀ name entry, merged.find? name = some entry ↔ Frontmost tables name entry

theorem merges_iff {merged : Table α} {tables : List (Table α)} : Merges merged tables ↔
    ∀ name entry, merged.find? name = some entry ↔ Frontmost tables name entry := by
  refine ⟨Merges.find?_eq, fun h => ⟨fun name => ?_, h⟩⟩
  rw [mem_names_iff, ← exists_frontmost_iff]
  exact exists_congr (h name)

theorem merges_empty : Merges (empty : Table α) [] :=
  merges_iff.mpr fun name entry => by simp [not_frontmost_nil]

theorem Merges.find?_eq_none {merged : Table α} {tables : List (Table α)} (h : Merges merged tables)
    {name : String} (hname : ∀ table ∈ tables, name ∉ table.names) : merged.find? name = none := by
  rw [find?_eq_none_iff, h.mem_names]
  rintro ⟨table, htable, hmem⟩
  exact hname table htable hmem

theorem Merges.concat {merged result : Table α} {tables : List (Table α)} (h : Merges merged tables)
    {table : Table α}
    (hresult : ∀ name, result.find? name = (table.find? name).or (merged.find? name)) :
    Merges result (tables ++ [table]) :=
  merges_iff.mpr fun name entry => by
    rw [hresult, Option.or_eq_some_iff, frontmost_concat, h.find?_eq]

theorem Merges.layered {merged : Table α} {tables : List (Table α)} (h : Merges merged tables)
    (table : Table α) : Merges (layered table merged) (tables ++ [table]) :=
  h.concat (find?_layered table merged)

theorem Merges.layered_empty {merged : Table α} {tables : List (Table α)} (h : Merges merged tables) :
    Merges (Table.layered empty merged) tables :=
  merges_iff.mpr fun name entry => by rw [find?_layered, find?_empty, Option.none_or, h.find?_eq]

theorem merges_self (table : Table α) : Merges table [table] :=
  merges_empty.concat fun name => by rw [find?_empty, Option.or_none]

def entries (table : Table α) : List (String × Entry α) := table.bindings.toList

/-- One table of all entries. Those of a table in front come later and count. -/
def merge (tables : List (Table α)) : Table α := ofEntries (tables.flatMap entries)

theorem mem_entries_iff {table : Table α} {name : String} {entry : Entry α} :
    (name, entry) ∈ table.entries ↔ table.find? name = some entry :=
  Std.TreeMap.mem_toList_iff_getElem?_eq_some

theorem lookup_reverse_entries (table : Table α) (name : String) :
    table.entries.reverse.lookup name = table.find? name := by
  cases hlookup : table.entries.reverse.lookup name with
  | none =>
    refine (Option.eq_none_iff_forall_ne_some.mpr fun entry hfind => ?_).symm
    have hne := List.lookup_eq_none_iff.mp hlookup _ (List.mem_reverse.mpr (mem_entries_iff.mpr hfind))
    simp at hne
  | some entry =>
    obtain ⟨before, after, hsplit, -⟩ := List.lookup_eq_some_iff.mp hlookup
    have hmem : (name, entry) ∈ table.entries.reverse := by simp [hsplit]
    exact (mem_entries_iff.mp (List.mem_reverse.mp hmem)).symm

theorem merges_merge (tables : List (Table α)) : Merges (merge tables) tables := by
  induction tables using List.reverseRecOn with
  | nil => exact merges_empty
  | append_singleton tables table ih =>
    refine ih.concat fun name => ?_
    rw [merge, find?_ofEntries, List.flatMap_append, List.flatMap_singleton, List.reverse_append,
      List.lookup_append, lookup_reverse_entries, merge, find?_ofEntries]

def Usable (table : Table α) : Prop :=
  ∀ name entry, table.find? name = some entry → ∃ label item, entry = .usable label item

theorem allUsable_eq (table : Table α) :
    table.allUsable = table.entries.all fun binding => binding.2.isUsable := by
  have hloop : table.allUsable = Id.run do
      for binding in table.bindings do
        if binding.2.isUsable = false then return false
      return true := rfl
  rw [hloop, Std.TreeMap.forIn_eq_forIn_toList, entries]
  induction table.bindings.toList with
  | nil => rfl
  | cons binding bindings ih =>
    rw [List.forIn_cons, List.all_cons]
    cases binding.2.isUsable with
    | false => rfl
    | true => exact ih

theorem allUsable_iff {table : Table α} : table.allUsable = true ↔ table.Usable := by
  have hentry (entry : Entry α) :
      entry.isUsable = true ↔ ∃ label item, entry = .usable label item := by
    cases entry <;> simp [Entry.isUsable]
  simp only [allUsable_eq, List.all_eq_true, Prod.forall, mem_entries_iff, hentry, Usable]

theorem Frontmost.usable {tables : List (Table α)} {name : String} {entry : Entry α}
    (h : Frontmost tables name entry) (husable : ∀ table ∈ tables, table.Usable) :
    ∃ label item, entry = .usable label item := by
  obtain ⟨behind, table, front, rfl, hfind, -⟩ := h
  exact husable table (by simp) name entry hfind

end BraceTemplate.Table
