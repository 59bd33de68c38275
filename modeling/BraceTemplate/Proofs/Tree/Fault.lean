import BraceTemplate.Files.Loader
import BraceTemplate.Proofs.Tree.Balance
import Mathlib.Order.Bounds.Defs

/-! # The brace at fault

The reader keeps the offsets of the braces that are open. What it has read leaves just these open: it
is balanced in front of the first of them, between any two and behind the last. So a closing brace
is refused where all before it is balanced, and at the end the innermost open brace is the one with
a balanced text behind it.
-/
namespace BraceTemplate
namespace Text

theorem prefix_or_of_prefix_append {α : Type} {before as bs : List α} (h : before <+: as ++ bs) :
    before <+: as ∨ ∃ more, before = as ++ more ∧ more <+: bs := by
  rcases List.prefix_or_prefix_of_prefix h (List.prefix_append as bs) with hfront | ⟨more, rfl⟩
  · exact .inl hfront
  · exact .inr ⟨more, rfl, (List.prefix_append_right_inj as).mp h⟩

theorem Closes.append {m n : Nat} {as bs : List Char} (ha : Closes m as) (hb : Closes n bs) :
    Closes (m + n) (as ++ bs) := by
  have htotal := ha.total
  refine ⟨fun before h => ?_, ?_⟩
  · rcases prefix_or_of_prefix_append h with hfront | ⟨more, rfl, hmore⟩
    · have := ha.within before hfront
      omega
    · have := hb.within more hmore
      rw [List.count_append, List.count_append]
      omega
  · have := hb.total
    rw [List.count_append, List.count_append]
    omega

theorem closes_singleton {c : Char} (hopen : c ≠ '\x7b') (hclose : c ≠ '\x7d') : Closes 0 [c] := by
  rw [closes_cons_iff 0 0 (by simp [hopen, hclose]), closes_nil_iff]

theorem Closes.group {cs : List Char} (h : Closes 0 cs) :
    Closes 0 ('\x7b' :: (cs ++ ['\x7d'])) := by
  have hlast : Closes 1 ['\x7d'] := by
    rw [closes_cons_iff 1 0 (by simp), closes_nil_iff]
  rw [closes_cons_iff 0 1 (by simp)]
  simpa using h.append hlast

/-- The characters leave open the braces at these offsets, the innermost first, and no others. -/
inductive LeavesOpen : List Nat → List Char → Prop where
  | none {cs : List Char} : Closes 0 cs → LeavesOpen [] cs
  | brace {starts : List Nat} {before behind : List Char} :
    LeavesOpen starts before → Closes 0 behind →
      LeavesOpen (before.length :: starts) (before ++ '\x7b' :: behind)

theorem LeavesOpen.append {starts : List Nat} {cs more : List Char} (h : LeavesOpen starts cs)
    (hmore : Closes 0 more) : LeavesOpen starts (cs ++ more) := by
  cases h with
  | none h => exact .none (h.append hmore)
  | brace h hbehind =>
    rw [List.append_assoc, List.cons_append]
    exact .brace h (hbehind.append hmore)

theorem LeavesOpen.open_brace {starts : List Nat} {cs : List Char} (h : LeavesOpen starts cs) :
    LeavesOpen (cs.length :: starts) (cs ++ ['\x7b']) :=
  .brace h (closes_nil_iff.mpr rfl)

theorem LeavesOpen.close_brace {start : Nat} {starts : List Nat} {cs : List Char}
    (h : LeavesOpen (start :: starts) cs) : LeavesOpen starts (cs ++ ['\x7d']) := by
  cases h with
  | brace h hbehind =>
    rw [List.append_assoc, List.cons_append]
    exact h.append hbehind.group

theorem LeavesOpen.within {starts : List Nat} {cs : List Char} (h : LeavesOpen starts cs) :
    ∀ before, before <+: cs → before.count '\x7d' ≤ before.count '\x7b' := by
  induction h with
  | none h => exact fun before hb => by simpa using h.within before hb
  | brace _ hbehind ih =>
    intro before hb
    rcases prefix_or_of_prefix_append hb with hfront | ⟨more, rfl, hmore⟩
    · exact ih before hfront
    · have hfront := ih _ (List.prefix_refl _)
      rcases List.prefix_cons_iff.mp hmore with rfl | ⟨inner, rfl, hinner⟩
      · simpa using hfront
      · have := hbehind.within inner hinner
        rw [List.count_append, List.count_append, List.count_cons_self,
          List.count_cons_of_ne (by decide)]
        omega

/-- Some prefix closes more groups than it opens. -/
def Overcloses (text : String) : Prop :=
  ∃ before, before <+: text.toList ∧ before.count '\x7b' < before.count '\x7d'

instance (text : String) : Decidable (Overcloses text) :=
  decidable_of_iff
    (∃ before ∈ text.toList.inits, before.count '\x7b' < before.count '\x7d')
    (by simp only [List.mem_inits, Overcloses])

/-- A closing brace stands at the offset, and as many braces are opened before it as are closed. -/
def ClosesNothing (text : String) (offset : Nat) : Prop :=
  text.toList[offset]? = some '\x7d' ∧
    (text.toList.take offset).count '\x7b' = (text.toList.take offset).count '\x7d'

/-- An opening brace stands at the offset, and what is behind it is balanced. -/
def StaysOpen (text : String) (offset : Nat) : Prop :=
  text.toList[offset]? = some '\x7b' ∧ Balanced (String.ofList (text.toList.drop (offset + 1)))

theorem balanced_ofList_iff {cs : List Char} : Balanced (String.ofList cs) ↔ Closes 0 cs := by
  rw [← closes_zero_iff, String.toList_ofList]

theorem ClosesNothing.count_take_succ {text : String} {offset : Nat}
    (h : ClosesNothing text offset) :
    (text.toList.take (offset + 1)).count '\x7b' < (text.toList.take (offset + 1)).count '\x7d' := by
  obtain ⟨hbrace, hcount⟩ := h
  rw [List.take_add_one, hbrace, Option.toList_some, List.count_append, List.count_append,
    List.count_singleton_self, hcount]
  exact Nat.lt_succ_self _

theorem ClosesNothing.overcloses {text : String} {offset : Nat} (h : ClosesNothing text offset) :
    Overcloses text :=
  ⟨_, List.take_prefix _ _, h.count_take_succ⟩

theorem isLeast_closesNothing {text : String} {before behind : List Char}
    (htext : text.toList = before ++ '\x7d' :: behind) (h : Closes 0 before) :
    IsLeast {offset | ClosesNothing text offset} before.length := by
  constructor
  · refine ⟨by simp [htext], ?_⟩
    have := h.total
    rw [htext, List.take_left]
    omega
  · intro offset hoffset
    by_contra hlt
    -- the brace at the smaller offset would close too much in a text that is balanced
    have hle : offset + 1 ≤ before.length := by omega
    have hfront : text.toList.take (offset + 1) <+: before := by
      rw [htext, List.take_append_of_le_length hle]
      exact List.take_prefix _ _
    have hcloses := hoffset.count_take_succ
    have hwithin := h.within _ hfront
    omega

theorem staysOpen_iff {text : String} {offset : Nat} :
    StaysOpen text offset ↔ ∃ before behind,
      text.toList = before ++ '\x7b' :: behind ∧ Closes 0 behind ∧ before.length = offset := by
  constructor
  · rintro ⟨hbrace, hbehind⟩
    obtain ⟨hlt, hget⟩ := List.getElem?_eq_some_iff.mp hbrace
    refine ⟨text.toList.take offset, text.toList.drop (offset + 1), ?_,
      balanced_ofList_iff.mp hbehind, List.length_take_of_le hlt.le⟩
    rw [← hget, ← List.drop_eq_getElem_cons hlt, List.take_append_drop]
  · rintro ⟨before, behind, htext, hbehind, rfl⟩
    have hdrop : text.toList.drop (before.length + 1) = behind := by
      rw [htext, List.drop_append, List.drop_eq_nil_of_le (by omega)]
      simp
    exact ⟨by simp [htext], balanced_ofList_iff.mpr (hdrop.symm ▸ hbehind)⟩

theorem not_closes_append_brace {before behind : List Char} (hbehind : Closes 0 behind) :
    ¬ Closes 0 (before ++ '\x7b' :: behind) := by
  intro h
  have htotal := h.total
  have hfront := h.within before (List.prefix_append _ _)
  have hrest := hbehind.total
  rw [List.count_append, List.count_append, List.count_cons_self,
    List.count_cons_of_ne (by decide)] at htotal
  omega

theorem eq_nil_of_brace_eq_append {mid behind behind' : List Char} (h : Closes 0 behind)
    (h' : Closes 0 behind') (hmid : '\x7b' :: behind = mid ++ '\x7b' :: behind') : mid = [] := by
  cases mid with
  | nil => rfl
  | cons c mid =>
    obtain ⟨-, rfl⟩ := List.cons.inj hmid
    exact absurd h (not_closes_append_brace h')

theorem StaysOpen.eq {text : String} {i j : Nat} (hi : StaysOpen text i) (hj : StaysOpen text j) :
    i = j := by
  obtain ⟨before, behind, htext, hbehind, rfl⟩ := staysOpen_iff.mp hi
  obtain ⟨before', behind', htext', hbehind', rfl⟩ := staysOpen_iff.mp hj
  -- if the braces differ, one stands behind the other
  rcases List.append_eq_append_iff.mp (htext.symm.trans htext') with
    ⟨mid, rfl, hmid⟩ | ⟨mid, rfl, hmid⟩
  · rw [eq_nil_of_brace_eq_append hbehind hbehind' hmid, List.append_nil]
  · rw [eq_nil_of_brace_eq_append hbehind' hbehind hmid, List.append_nil]

end Text

/-- The offsets of the braces that are open, the innermost first. The template itself has none. -/
def OpenGroup.starts : OpenGroup → (outer : List OpenGroup) → List Nat
  | _, [] => []
  | group, parent :: outer => group.start :: parent.starts outer

@[simp] theorem OpenGroup.starts_push (group : OpenGroup) (c : Char) (outer : List OpenGroup) :
    (group.push c).starts outer = group.starts outer := by
  cases outer <;> rfl

@[simp] theorem OpenGroup.starts_addGroup (group : OpenGroup) (inner : Group)
    (outer : List OpenGroup) : (group.addGroup inner).starts outer = group.starts outer := by
  cases outer <;> rfl

namespace Reader
open Text

/-- The reader has read the characters `before`, and keeps the braces that they leave open. -/
structure Tracks (reader : Reader) (before : List Char) : Prop where
  offset : reader.offset = before.length
  leavesOpen : LeavesOpen (reader.current.starts reader.outer) before

theorem tracks_start : start.Tracks [] where
  offset := rfl
  leavesOpen := .none (closes_nil_iff.mpr rfl)

theorem Tracks.step {reader next : Reader} {before : List Char} {c : Char}
    (h : reader.Tracks before) (hs : reader.step c = .ok next) : next.Tracks (before ++ [c]) := by
  obtain ⟨offset, current, outer⟩ := reader
  obtain ⟨hoffset, hopen⟩ := h
  have hnext : offset + 1 = (before ++ [c]).length := by
    rw [List.length_append, ← hoffset]
    rfl
  by_cases hbrace : c = '\x7b'
  · subst hbrace
    cases hs
    refine ⟨hnext, ?_⟩
    rw [OpenGroup.starts, OpenGroup.startingAt]
    exact hoffset ▸ hopen.open_brace
  by_cases hclose : c = '\x7d'
  · subst hclose
    cases outer with
    | nil => simp [Reader.step] at hs
    | cons parent outer =>
      cases hs
      exact ⟨hnext, by simpa using hopen.close_brace⟩
  · simp only [Reader.step, if_neg hbrace, if_neg hclose] at hs
    cases hs
    exact ⟨hnext, by simpa using hopen.append (closes_singleton hbrace hclose)⟩

theorem Tracks.step_error {reader : Reader} {before : List Char} {c : Char} {offset : Nat}
    (h : reader.Tracks before) (hs : reader.step c = .error offset) :
    c = '\x7d' ∧ Closes 0 before ∧ offset = before.length := by
  obtain ⟨position, current, outer⟩ := reader
  obtain ⟨hoffset, hopen⟩ := h
  unfold Reader.step at hs
  split at hs
  · cases hs
  split at hs
  · rename_i hclose
    cases outer with
    | nil =>
      cases hs
      cases hopen with
      | none hclosed => exact ⟨hclose, hclosed, hoffset⟩
    | cons parent outer => cases hs
  · cases hs

theorem Tracks.finish_error {reader : Reader} {before : List Char} {offset : Nat}
    (h : reader.Tracks before) (hf : reader.finish = .error offset) :
    ∃ front behind, before = front ++ '\x7b' :: behind ∧ Closes 0 behind ∧ front.length = offset := by
  obtain ⟨position, current, outer⟩ := reader
  obtain ⟨-, hopen⟩ := h
  cases outer with
  | nil => cases hf
  | cons parent outer =>
    cases hf
    rw [OpenGroup.starts] at hopen
    generalize current.start = start at hopen
    cases hopen with
    | @brace _ front behind _ hbehind => exact ⟨front, behind, rfl, hbehind, rfl⟩

/-- A template is refused at the first brace that closes nothing, or else, when no prefix of it closes
too much, at the brace that stays open. -/
theorem Tracks.read_error {reader : Reader} {before cs : List Char} {text : String} {offset : Nat}
    (h : reader.Tracks before) (htext : text.toList = before ++ cs)
    (hr : reader.read cs = .error offset) :
    IsLeast {offset | ClosesNothing text offset} offset ∨
      ¬ Overcloses text ∧ StaysOpen text offset := by
  induction cs generalizing reader before with
  | nil =>
    rw [List.append_nil] at htext
    right
    constructor
    · rintro ⟨front, hfront, hlt⟩
      exact absurd (h.leavesOpen.within front (htext ▸ hfront)) (by omega)
    · obtain ⟨front, behind, hbefore, hbehind, rfl⟩ := h.finish_error hr
      exact staysOpen_iff.mpr ⟨front, behind, htext.trans hbefore, hbehind, rfl⟩
  | cons c cs ih =>
    rw [Reader.read] at hr
    cases hs : reader.step c with
    | error fault =>
      rw [hs] at hr
      cases hr
      obtain ⟨rfl, hclosed, rfl⟩ := h.step_error hs
      exact .inl (isLeast_closesNothing htext hclosed)
    | ok next =>
      rw [hs] at hr
      exact ih (h.step hs) (by simpa using htext) hr

end Reader

namespace Group
open Text

theorem ofValue_text_eq_ok_iff {source : String} {tree : Group} :
    ofValue (.text source) = .ok tree ↔ parse source = .ok tree := by
  cases hp : parse source <;> simp [ofValue, hp]

theorem ofValue_text_eq_error_iff {source : String} {offset : Nat} :
    ofValue (.text source) = .error (.unmatchedBrace offset) ↔ parse source = .error offset := by
  cases hp : parse source <;> simp [ofValue, hp]

theorem parse_error {source : String} {offset : Nat} (h : parse source = .error offset) :
    IsLeast {offset | ClosesNothing source offset} offset ∨
      ¬ Overcloses source ∧ StaysOpen source offset :=
  Reader.tracks_start.read_error rfl h

theorem exists_parse_error {source : String} (h : ¬ Balanced source) :
    ∃ offset, parse source = .error offset := by
  cases hp : parse source with
  | ok tree => exact absurd (exists_parse_iff.mp ⟨tree, hp⟩) h
  | error offset => exact ⟨offset, rfl⟩

/-- Just the balanced texts are templates. A text that closes too much is refused at the first brace that
closes nothing, and any other text that opens more than it closes at the only brace with a balanced text
behind it. -/
theorem ofValue_text_fault (source : String) :
    ((∃ tree, ofValue (.text source) = .ok tree) ↔ Balanced source) ∧
    (Overcloses source → ∃ offset, ofValue (.text source) = .error (.unmatchedBrace offset) ∧
      IsLeast {offset | ClosesNothing source offset} offset) ∧
    (¬ Overcloses source → source.toList.count '\x7d' < source.toList.count '\x7b' →
      ∃ offset, ofValue (.text source) = .error (.unmatchedBrace offset) ∧
        ∀ other, StaysOpen source other ↔ other = offset) := by
  refine ⟨?_, fun hover => ?_, fun hwithin htotal => ?_⟩
  · simp only [ofValue_text_eq_ok_iff]
    exact exists_parse_iff
  · have hnot : ¬ Balanced source := by
      rintro ⟨hwithin, -⟩
      obtain ⟨before, hbefore, hlt⟩ := hover
      exact absurd (hwithin before hbefore) (by omega)
    obtain ⟨offset, hoffset⟩ := exists_parse_error hnot
    rcases parse_error hoffset with hleast | ⟨hnover, -⟩
    · exact ⟨offset, ofValue_text_eq_error_iff.mpr hoffset, hleast⟩
    · exact absurd hover hnover
  · have hnot : ¬ Balanced source := fun hbalanced => absurd hbalanced.total (by omega)
    obtain ⟨offset, hoffset⟩ := exists_parse_error hnot
    rcases parse_error hoffset with hleast | ⟨-, hopen⟩
    · exact absurd hleast.1.overcloses hwithin
    · refine ⟨offset, ofValue_text_eq_error_iff.mpr hoffset, fun other => ⟨fun h => h.eq hopen, ?_⟩⟩
      rintro rfl
      exact hopen

/-- Of the two braces that close nothing the first is at fault, and of the two that stay open the second. -/
theorem ofValue_text_fault_innermost :
    Overcloses "a\x7bb\x7d\x7d\x7b\x7d\x7d" ∧
    ofValue (.text "a\x7bb\x7d\x7d\x7b\x7d\x7d") = .error (.unmatchedBrace 4) ∧
    IsLeast {offset | ClosesNothing "a\x7bb\x7d\x7d\x7b\x7d\x7d" offset} 4 ∧
    ¬ Overcloses "\x7ba \x7bb\x7d\x7bc\x7bd\x7d" ∧
    "\x7ba \x7bb\x7d\x7bc\x7bd\x7d".toList.count '\x7d' <
      "\x7ba \x7bb\x7d\x7bc\x7bd\x7d".toList.count '\x7b' ∧
    ofValue (.text "\x7ba \x7bb\x7d\x7bc\x7bd\x7d") = .error (.unmatchedBrace 6) ∧
    ∀ other, StaysOpen "\x7ba \x7bb\x7d\x7bc\x7bd\x7d" other ↔ other = 6 := by
  have hover : Overcloses "a\x7bb\x7d\x7d\x7b\x7d\x7d" := by decide
  have hfault : ofValue (.text "a\x7bb\x7d\x7d\x7b\x7d\x7d") = .error (.unmatchedBrace 4) := by rfl
  have hwithin : ¬ Overcloses "\x7ba \x7bb\x7d\x7bc\x7bd\x7d" := by decide
  have htotal : "\x7ba \x7bb\x7d\x7bc\x7bd\x7d".toList.count '\x7d' <
      "\x7ba \x7bb\x7d\x7bc\x7bd\x7d".toList.count '\x7b' := by decide
  have hfault' : ofValue (.text "\x7ba \x7bb\x7d\x7bc\x7bd\x7d") = .error (.unmatchedBrace 6) := by
    rfl
  obtain ⟨i, hi, hleast⟩ := (ofValue_text_fault "a\x7bb\x7d\x7d\x7b\x7d\x7d").2.1 hover
  obtain ⟨j, hj, hopen⟩ := (ofValue_text_fault "\x7ba \x7bb\x7d\x7bc\x7bd\x7d").2.2 hwithin htotal
  obtain rfl : 4 = i := by simpa using hfault.symm.trans hi
  obtain rfl : 6 = j := by simpa using hfault'.symm.trans hj
  exact ⟨hover, hfault, hleast, hwithin, htotal, hfault', hopen⟩

end Group
end BraceTemplate
