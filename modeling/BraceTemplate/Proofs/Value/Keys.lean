import BraceTemplate.Value.Basic

/-! # Keys of maps

A map has a key once: inserting under a key that is there replaces its value. So looking up the key of
an entry finds the value of just this entry.
-/
namespace BraceTemplate.Value

def DistinctKeys (entries : List (Value × Value)) : Prop :=
  entries.Pairwise fun e f => sameKey e.1 f.1 = false

theorem sameKey_text_iff {key : Value} {s : String} :
    sameKey key (.text s) = true ↔ key = .text s := by
  cases key <;> simp [sameKey, number?]

theorem lookup_eq_none {key : Value} {entries : List (Value × Value)}
    (h : ∀ e ∈ entries, sameKey e.1 key = false) : atKey? key entries = none := by
  rw [atKey?, Option.map_eq_none_iff, List.find?_eq_none]
  intro e he
  simp [h e he]

/-- The key of an entry is found, if it is the same key as itself. A number that is none is not. -/
theorem exists_lookup_of_mem {key value : Value} {entries : List (Value × Value)}
    (hkey : sameKey key key = true) (h : (key, value) ∈ entries) :
    ∃ found, atKey? key entries = some found := by
  have hsome : (entries.find? fun e => sameKey e.1 key).isSome := by
    rw [List.find?_isSome]
    exact ⟨_, h, hkey⟩
  obtain ⟨e, he⟩ := Option.isSome_iff_exists.mp hsome
  exact ⟨e.2, by rw [atKey?, he]; rfl⟩

theorem DistinctKeys.lookup_of_mem {key value : Value} {entries : List (Value × Value)}
    (hdistinct : DistinctKeys entries) (hkey : sameKey key key = true) (h : (key, value) ∈ entries) :
    atKey? key entries = some value := by
  induction entries with
  | nil => cases h
  | cons e entries ih =>
    obtain ⟨hfirst, hrest⟩ := List.pairwise_cons.mp hdistinct
    rcases List.mem_cons.mp h with rfl | h
    · simp [atKey?, hkey]
    · have hne : sameKey e.1 key = false := hfirst _ h
      rw [atKey?, List.find?_cons_of_neg (by simp [hne])]
      exact ih hrest h

theorem key_of_mem_insertEntry {key value : Value} {entries : List (Value × Value)}
    {e : Value × Value} (h : e ∈ insertEntry key value entries) :
    e.1 = key ∨ ∃ f ∈ entries, f.1 = e.1 := by
  induction entries with
  | nil =>
    rw [insertEntry, List.mem_singleton] at h
    exact .inl (congrArg Prod.fst h)
  | cons f entries ih =>
    unfold insertEntry at h
    split at h
    · rcases List.mem_cons.mp h with rfl | h
      · exact .inr ⟨f, List.mem_cons_self, rfl⟩
      · exact .inr ⟨e, List.mem_cons_of_mem _ h, rfl⟩
    · rcases List.mem_cons.mp h with rfl | h
      · exact .inr ⟨_, List.mem_cons_self, rfl⟩
      · rcases ih h with hkey | ⟨g, hg, hge⟩
        · exact .inl hkey
        · exact .inr ⟨g, List.mem_cons_of_mem _ hg, hge⟩

theorem DistinctKeys.insertEntry {entries : List (Value × Value)} (h : DistinctKeys entries)
    (key value : Value) : DistinctKeys (insertEntry key value entries) := by
  induction entries with
  | nil => exact List.pairwise_singleton _ _
  | cons e entries ih =>
    obtain ⟨hfirst, hrest⟩ := List.pairwise_cons.mp h
    unfold Value.insertEntry
    split
    · exact List.pairwise_cons.mpr ⟨hfirst, hrest⟩
    · rename_i hne
      refine List.pairwise_cons.mpr ⟨fun f hf => ?_, ih hrest⟩
      rcases key_of_mem_insertEntry hf with hkey | ⟨g, hg, hgf⟩
      · rw [hkey]
        simpa using hne
      · rw [← hgf]
        exact hfirst g hg

theorem DistinctKeys.foldl_insertEntry {distinct : List (Value × Value)}
    (h : DistinctKeys distinct) (entries : List (Value × Value)) :
    DistinctKeys (entries.foldl (fun es e => Value.insertEntry e.1 e.2 es) distinct) := by
  induction entries generalizing distinct with
  | nil => exact h
  | cons e entries ih => exact ih (h.insertEntry e.1 e.2)

theorem exists_ofEntries_eq_map (entries : List (Value × Value)) :
    ∃ distinct, ofEntries entries = .map distinct ∧ DistinctKeys distinct :=
  ⟨_, rfl, DistinctKeys.foldl_insertEntry .nil entries⟩

end BraceTemplate.Value
