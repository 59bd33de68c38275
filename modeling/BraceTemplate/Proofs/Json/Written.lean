import BraceTemplate.Json.Writer
import BraceTemplate.Proofs.Json.Spelling

/-! # What is written is a spelling

The writer leaves no blanks and escapes only what it must, which is one of the spellings of a value. So
what is written is read as the value that it was written for.
-/
namespace BraceTemplate.Json

theorem hexValue?_hexDigit {n : Nat} (h : n < 16) : hexValue? (Text.hexDigit n) = some n := by
  have hall : ∀ k < 16, hexValue? (Text.hexDigit k) = some k := by decide
  exact hall n h

theorem readUnit?_hexDigits {n : Nat} (h : n < 0x10000) :
    readUnit? ((Text.hexDigits 4 n).map some) = some n := by
  have hdigit (k : Nat) : digit? (some (Text.hexDigit (k % 16))) = some (k % 16) :=
    hexValue?_hexDigit (Nat.mod_lt k (by decide))
  simp only [Text.hexDigits, List.nil_append, List.cons_append, List.map_cons, List.map_nil,
    readUnit?, hdigit, Option.bind_eq_bind, Option.bind_some, Option.pure_def, Option.some.injEq]
  omega

theorem spellsChar_quotedChar (c : Char) : SpellsChar c (quotedChar c) := by
  unfold quotedChar
  split
  next h => exact .letter (by rw [h]; decide)
  split
  next h => exact .letter (by rw [h]; decide)
  split
  next h => exact .letter (by rw [h]; decide)
  split
  next h => exact .letter (by rw [h]; decide)
  split
  next h => exact .letter (by rw [h]; decide)
  split
  next h => exact .letter (by rw [h]; decide)
  split
  next h => exact .letter (by rw [h]; decide)
  split
  next h => exact .unit (readUnit?_hexDigits (by omega))
  next hquote hslash _ _ _ _ _ hlow => exact .plain hquote hslash (by omega)

theorem spellsText_quotedChar (cs : List Char) : SpellsText cs (cs.flatMap quotedChar) := by
  induction cs with
  | nil => exact .nil
  | cons c cs ih => exact .cons (spellsChar_quotedChar c) ih

@[simp] theorem decoded_map_some (cs : List Char) : decoded (cs.map some) = cs := by
  simp [decoded, List.filterMap_map]

theorem spells_ofText (text : String) : Spells (ofText text) (ofText text).write := by
  rw [ofText, charsOf, write, decoded_map_some]
  exact .str (spellsText_quotedChar text.toList)

theorem spellsItems_writeItems {item : Json} {items : List Json}
    (h : ∀ i ∈ item :: items, Spells i i.write) :
    SpellsItems (item :: items) (writeItems (item :: items)) := by
  induction items generalizing item with
  | nil =>
    have hwrite : writeItems [item] = [] ++ item.write ++ [] := by
      simp [writeItems, writeMoreItems]
    rw [hwrite]
    exact .last isGap_nil (h item (by simp)) isGap_nil
  | cons next items ih =>
    have hwrite : writeItems (item :: next :: items) =
        [] ++ item.write ++ [] ++ ',' :: writeItems (next :: items) := by
      simp [writeItems, writeMoreItems]
    rw [hwrite]
    exact .more isGap_nil (h item (by simp)) isGap_nil
      (ih fun i hi => h i (List.mem_cons_of_mem _ hi))

theorem spells_array {items : List Json} (h : ∀ i ∈ items, Spells i i.write) :
    Spells (.array items true) (write (.array items true)) := by
  rw [write]
  cases items with
  | nil => exact .emptyArray isGap_nil
  | cons item items => exact .array (spellsItems_writeItems h)

theorem spellsKey_quotedChars (key : String) :
    SpellsKey (charsOf key) (quotedChars (decoded (charsOf key)) ++ [':']) := by
  have hwrite : quotedChars (decoded (charsOf key)) ++ [':'] =
      [] ++ '"' :: key.toList.flatMap quotedChar ++ '"' :: [] ++ [':'] := by
    simp [quotedChars, charsOf]
  rw [hwrite]
  exact .intro isGap_nil (spellsText_quotedChar key.toList) isGap_nil

def named (members : List (String × Json)) : List (Chars × Json) :=
  members.map fun m => (charsOf m.1, m.2)

theorem spellsMembers_writeMembers {member : String × Json} {members : List (String × Json)}
    (h : ∀ m ∈ member :: members, Spells m.2 m.2.write) :
    SpellsMembers (named (member :: members)) (writeMembers (named (member :: members))) := by
  induction members generalizing member with
  | nil =>
    obtain ⟨key, value⟩ := member
    have hwrite : writeMembers (named [(key, value)]) =
        (quotedChars (decoded (charsOf key)) ++ [':']) ++ [] ++ value.write ++ [] := by
      simp [named, writeMembers, writeMoreMembers]
    rw [hwrite]
    exact .last (spellsKey_quotedChars key) isGap_nil (h (key, value) (by simp)) isGap_nil
  | cons next members ih =>
    obtain ⟨key, value⟩ := member
    have hwrite : writeMembers (named ((key, value) :: next :: members)) =
        (quotedChars (decoded (charsOf key)) ++ [':']) ++ [] ++ value.write ++ [] ++
          ',' :: writeMembers (named (next :: members)) := by
      simp [named, writeMembers, writeMoreMembers]
    rw [hwrite]
    exact .more (spellsKey_quotedChars key) isGap_nil (h (key, value) (by simp)) isGap_nil
      (ih fun m hm => h m (List.mem_cons_of_mem _ hm))

theorem spells_object {members : List (String × Json)}
    (h : ∀ m ∈ members, Spells m.2 m.2.write) :
    Spells (.object (named members) true) (write (.object (named members) true)) := by
  rw [write]
  cases members with
  | nil => exact .emptyObject isGap_nil
  | cons member members => exact .object (spellsMembers_writeMembers h)

end BraceTemplate.Json
