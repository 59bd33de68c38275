import BraceTemplate.Proofs.Path.Composition
import BraceTemplate.Proofs.Value.Display
import BraceTemplate.Proofs.Value.Keys
import BraceTemplate.Proofs.Value.Numeral

/-! # Entries and the segments that lead to them

The segments of a collection lead to its entries: composed with the path of the collection, they resolve
to the items, or to the values of the keys. For a key this needs a text that is a single segment, or
an integer whose numeral is no key of its own.
-/
namespace BraceTemplate

theorem Text.cutAt_of_notMem {separator : Char} {cs : List Char} (h : separator ∉ cs) :
    cutAt separator cs = (cs, []) := by
  induction cs with
  | nil => rfl
  | cons c cs ih =>
    rw [List.mem_cons, not_or] at h
    simp [cutAt, ih h.2, Ne.symm h.1]

def Value.orNull (value : Value) : Value := if value.isAbsent then .null else value

namespace Path
open Value

structure Single (segment : String) : Prop where
  ne_empty : segment ≠ ""
  undotted : '.' ∉ segment.toList

theorem Single.ne_here {segment : String} (h : Single segment) : segment ≠ here := by
  rintro rfl
  exact h.undotted (by decide)

theorem Single.segments_eq {segment : String} (h : Single segment) :
    segments segment = [segment] := by
  simp [segments, Text.pieces, Text.cutAt_of_notMem h.undotted]

theorem single_natText (n : Nat) : Single (natText n) where
  ne_empty := natText_ne_empty n
  undotted := fun h => by simpa using isDigit_of_mem_natText h

theorem Single.resolve_eq {segment : String} (h : Single segment) (data : Value) :
    resolve data segment = ((lookup? data segment).getD .null).orNull := by
  rw [resolve_of_ne data h.ne_empty h.ne_here, h.segments_eq, follow, orNull, follow]

theorem entrySegments_items {collection : Value} {items : List Value}
    (h : collection = .list items ∨ collection = .tuple items) :
    entrySegments collection = (List.range items.length).map natText := by
  have hkeys : entryKeys collection = (List.range items.length).map fun i => .int (i : Nat) := by
    rcases h with rfl | rfl <;> rfl
  rw [entrySegments, hkeys, List.map_map]
  exact List.map_congr_left fun i _ => display_natCast i

theorem resolve_item {collection : Value} {items : List Value}
    (h : collection = .list items ∨ collection = .tuple items) {i : Nat} (hi : i < items.length) :
    resolve collection (natText i) = (items[i]).orNull := by
  have hindex : index? items (natText i) = some items[i] := by
    rw [index?, readDecimal?_natText]
    exact List.getElem?_eq_getElem hi
  rw [(single_natText i).resolve_eq]
  rcases h with rfl | rfl
  · rw [lookup?, hindex, Option.getD_some]
  · rw [lookup?, hindex, Option.getD_some]

/-- A segment can name the key: a text that is a single segment, or an integer that no text hides. -/
inductive Nameable (entries : List (Value × Value)) : Value → Prop where
  | text {s : String} : Single s → Nameable entries (.text s)
  | int {n : Nat} : (∀ e ∈ entries, e.1 ≠ .text (natText n)) → Nameable entries (.int n)

theorem Nameable.sameKey_self {entries : List (Value × Value)} {key : Value}
    (h : Nameable entries key) : sameKey key key = true := by
  cases h <;> simp

theorem Nameable.single_display {entries : List (Value × Value)} {key : Value}
    (h : Nameable entries key) : Single key.display := by
  cases h with
  | text h => exact h
  | @int n _ =>
    rw [display_natCast]
    exact single_natText n

theorem Nameable.atSegment?_display {entries : List (Value × Value)} {key found : Value}
    (h : Nameable entries key) (hfound : Value.atKey? key entries = some found) :
    atSegment? entries key.display = some found := by
  cases h with
  | text _ => rw [display, atSegment?, hfound]
  | @int n hhidden =>
    have hnone : Value.atKey? (.text (natText n)) entries = none := by
      apply lookup_eq_none
      intro e he
      rw [Bool.eq_false_iff, ne_eq, sameKey_text_iff]
      exact hhidden e he
    rw [display_natCast, atSegment?, hnone, readDecimal?_natText]
    exact hfound

theorem Nameable.resolve_display {entries : List (Value × Value)} {key found : Value}
    (h : Nameable entries key) (hfound : Value.atKey? key entries = some found) :
    resolve (.map entries) key.display = found.orNull := by
  rw [h.single_display.resolve_eq, lookup?, h.atSegment?_display hfound, Option.getD_some]

/-- The segments of a collection lead from its path to its items, and to the values of its keys. The keys of
a map that is made of entries are distinct. -/
theorem resolve_entry {path : String} (hpath : path ≠ here) (data : Value) :
    (∀ items, resolve data path = .list items ∨ resolve data path = .tuple items →
      (entrySegments (resolve data path)).length = items.length ∧
      ∀ i (hi : i < items.length), ∃ segment, (entrySegments (resolve data path))[i]? = some segment ∧
        resolve data (compose path segment) = (items[i]).orNull) ∧
    (∀ entries, resolve data path = .map entries →
      entrySegments (resolve data path) = entries.map (fun e => e.1.display) ∧
      ∀ key value, (key, value) ∈ entries → Nameable entries key →
        ∃ found, Value.atKey? key entries = some found ∧ (DistinctKeys entries → found = value) ∧
          resolve data (compose path key.display) = found.orNull) ∧
    ∀ given, ∃ entries, Value.ofEntries given = .map entries ∧ DistinctKeys entries := by
  refine ⟨?_, ?_, exists_ofEntries_eq_map⟩
  · intro items hitems
    rw [entrySegments_items hitems]
    refine ⟨by simp, fun i hi => ⟨natText i, by simp [hi], ?_⟩⟩
    rw [resolve_resolve hpath, resolve_item hitems hi]
  · intro entries hentries
    rw [hentries]
    refine ⟨List.map_map, fun key value hmem hkey => ?_⟩
    obtain ⟨found, hfound⟩ := exists_lookup_of_mem hkey.sameKey_self hmem
    refine ⟨found, hfound, fun hdistinct => ?_, ?_⟩
    · have hvalue := hdistinct.lookup_of_mem hkey.sameKey_self hmem
      exact Option.some.inj (hfound.symm.trans hvalue)
    · rw [resolve_resolve hpath, hentries, hkey.resolve_display hfound]

/-- A map with an absent value and an integer key, and a list. -/
def shelf : Value :=
  .map [(.text "a", .map [(.text "b", .int 0), (.int 7, .text "x")]),
    (.text "l", .list [.null, .text "y"])]

/-- The key 7 is found by its numeral, and the key `b` has no value since zero is absent. -/
theorem resolve_entry_shelf :
    "l" ≠ here ∧ "a" ≠ here ∧ resolve shelf (compose "l" "1") = .text "y" ∧
    Nameable [(.text "b", .int 0), (.int 7, .text "x")] (.text "b") ∧
    resolve shelf (compose "a" "b") = .null ∧
    Nameable [(.text "b", .int 0), (.int 7, .text "x")] (.int 7) ∧
    resolve shelf (compose "a" "7") = .text "x" := by
  have hl : "l" ≠ here := by decide
  have ha : "a" ≠ here := by decide
  have hlist : resolve shelf "l" = .list [.null, .text "y"] := by rfl
  have hmap : resolve shelf "a" = .map [(.text "b", .int 0), (.int 7, .text "x")] := by rfl
  have hb : Nameable [(.text "b", .int 0), (.int 7, .text "x")] (.text "b") :=
    .text ⟨by decide, by decide⟩
  have h7 : Nameable [(.text "b", .int 0), (.int 7, .text "x")] (.int 7) := by
    refine Nameable.int (n := 7) fun e he => ?_
    rcases List.mem_cons.mp he with rfl | he
    · simpa using show "b" ≠ natText 7 by decide
    · rw [List.mem_singleton.mp he]
      simp
  obtain ⟨segment, hsegment, hitem⟩ := ((resolve_entry hl shelf).1 _ (.inl hlist)).2 1 (by decide)
  obtain ⟨-, hentry⟩ := (resolve_entry ha shelf).2.1 _ hmap
  obtain ⟨found, hfound, -, hvalue⟩ := hentry (.text "b") (.int 0) (by simp) hb
  obtain ⟨found', hfound', -, hvalue'⟩ := hentry (.int 7) (.text "x") (by simp) h7
  obtain rfl : "1" = segment := by
    rw [hlist] at hsegment
    exact Option.some.inj hsegment
  obtain rfl : .int 0 = found := Option.some.inj hfound
  obtain rfl : .text "x" = found' := Option.some.inj hfound'
  exact ⟨hl, ha, hitem, hb, hvalue, h7, hvalue'⟩

end Path
end BraceTemplate
