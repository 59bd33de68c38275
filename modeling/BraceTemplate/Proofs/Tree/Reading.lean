import BraceTemplate.Proofs.Tree.Concat
import BraceTemplate.Tree.Parser

/-! # What the reader of templates accepts

An open group is known by the group that closing it now would give. Reading the source of a tree
without braces in its texts puts the tree behind this group, and every step of the reader spells
out exactly the character that it reads. So a template is accepted just when it is the source of
such a tree, and it is read as that tree.
-/
namespace BraceTemplate

namespace OpenGroup

theorem foldl_nest_concat (pieces : List (String × Group)) (group more : Group) :
    pieces.foldl (fun rest piece => .nest piece.1 piece.2 rest) (group.concat more) =
      (pieces.foldl (fun rest piece => .nest piece.1 piece.2 rest) group).concat more := by
  induction pieces generalizing group with
  | nil => rfl
  | cons piece pieces ih => exact ih (.nest piece.1 piece.2 group)

@[simp] theorem close_startingAt (start : Nat) : (startingAt start).close = .text "" := rfl

def write (group : OpenGroup) (cs : List Char) : OpenGroup :=
  { group with text := cs.reverse ++ group.text }

theorem write_cons (group : OpenGroup) (c : Char) (cs : List Char) :
    group.write (c :: cs) = (group.push c).write cs := by
  simp [write, push]

theorem close_write (group : OpenGroup) (cs : List Char) :
    (group.write cs).close = group.close.concat (.text (String.ofList cs)) := by
  have h := foldl_nest_concat group.pieces (.text group.currentText) (.text (String.ofList cs))
  rw [close, close, ← h]
  simp [write, currentText, Group.concat, Group.setHead, Group.head, String.ofList_append]

theorem close_push (group : OpenGroup) (c : Char) :
    (group.push c).close = group.close.concat (.text (String.ofList [c])) :=
  close_write group [c]

theorem close_addGroup (group : OpenGroup) (inner : Group) :
    (group.addGroup inner).close = group.close.concat (.nest "" inner (.text "")) := by
  have h := foldl_nest_concat group.pieces (.text group.currentText) (.nest "" inner (.text ""))
  rw [close, close, ← h]
  simp [addGroup, currentText, Group.concat, Group.setHead, Group.head]

/-- Takes in the texts and the nested groups of a tree, one after the other. -/
def absorb (group : OpenGroup) : Group → OpenGroup
  | .text head => group.write head.toList
  | .nest head inner rest => ((group.write head.toList).addGroup inner).absorb rest

theorem close_absorb (group : OpenGroup) (tree : Group) :
    (group.absorb tree).close = group.close.concat tree := by
  induction tree generalizing group with
  | text head => simp [absorb, close_write]
  | nest head inner rest _ ih =>
    rw [absorb, ih, close_addGroup, close_write, Group.concat_assoc, Group.concat_assoc,
      String.ofList_toList, Group.concat_pieces]

end OpenGroup

namespace Reader

theorem read_write (offset : Nat) (group : OpenGroup) (outer : List OpenGroup)
    {cs : List Char} (h : ∀ c ∈ cs, c ≠ '\x7b' ∧ c ≠ '\x7d') (rest : List Char) :
    read ⟨offset, group, outer⟩ (cs ++ rest) =
      read ⟨offset + cs.length, group.write cs, outer⟩ rest := by
  induction cs generalizing offset group with
  | nil => rfl
  | cons c cs ih =>
    obtain ⟨hopen, hclose⟩ := h c List.mem_cons_self
    have hstep : step ⟨offset, group, outer⟩ c = .ok ⟨offset + 1, group.push c, outer⟩ := by
      simp [step, hopen, hclose]
    rw [List.cons_append, read, hstep, OpenGroup.write_cons, List.length_cons]
    simpa [Nat.add_assoc, Nat.add_comm 1] using
      ih (offset + 1) (group.push c) fun c hc => h c (List.mem_cons_of_mem _ hc)

theorem read_innerSource (offset : Nat) (group : OpenGroup) (outer : List OpenGroup)
    {tree : Group} (h : tree.BraceFree) (rest : List Char) :
    read ⟨offset, group, outer⟩ (tree.innerSource.toList ++ rest) =
      read ⟨offset + tree.innerSource.toList.length, group.absorb tree, outer⟩ rest := by
  induction tree generalizing offset group outer rest with
  | text head => exact read_write offset group outer h rest
  | nest head inner tail ihInner ihTail =>
    obtain ⟨hh, hi, ht⟩ := h
    have hsource : (Group.nest head inner tail).innerSource.toList ++ rest =
        head.toList ++ '\x7b' :: (inner.innerSource.toList ++
          '\x7d' :: (tail.innerSource.toList ++ rest)) := by
      simp [Group.innerSource, String.toList_append]
    have hlength : (Group.nest head inner tail).innerSource.toList.length =
        head.toList.length + 1 + inner.innerSource.toList.length + 1 +
          tail.innerSource.toList.length := by
      simp [Group.innerSource, String.toList_append]
      omega
    rw [hsource, hlength, read_write offset group outer hh, read]
    simp only [step, ↓reduceIte]
    rw [ihInner _ _ _ hi, read]
    simp only [step, Char.reduceEq, ↓reduceIte]
    rw [ihTail _ _ _ ht, OpenGroup.close_absorb, OpenGroup.close_startingAt,
      Group.text_empty_concat, OpenGroup.absorb]
    congr 2
    omega

def spelled (reader : Reader) : List Char :=
  (reader.outer.reverse.flatMap fun group => group.close.innerSource.toList ++ ['\x7b']) ++
    reader.current.close.innerSource.toList

/-- The reader has read the characters `before`, and no text that it keeps has a brace. -/
structure HasRead (reader : Reader) (before : List Char) : Prop where
  spelled : reader.spelled = before
  braceFree : ∀ group ∈ reader.current :: reader.outer, group.close.BraceFree

theorem hasRead_start : start.HasRead [] where
  spelled := rfl
  braceFree := by
    intro group hg
    rw [List.mem_singleton.mp hg]
    exact Text.braceFree_empty

theorem HasRead.step {reader next : Reader} {before : List Char} {c : Char}
    (h : reader.HasRead before) (hs : reader.step c = .ok next) :
    next.HasRead (before ++ [c]) := by
  obtain ⟨offset, current, outer⟩ := reader
  obtain ⟨rfl, hfree⟩ := h
  by_cases hopen : c = '\x7b'
  · subst hopen
    cases hs
    refine ⟨by simp [Reader.spelled, Group.innerSource], ?_⟩
    intro group hg
    rcases List.mem_cons.mp hg with rfl | hg
    · exact Text.braceFree_empty
    · exact hfree group hg
  by_cases hclose : c = '\x7d'
  · subst hclose
    cases outer with
    | nil => simp [Reader.step] at hs
    | cons parent outer =>
      cases hs
      -- the current group goes behind its parent, and both have spelled what stands between
      have hcurrent := hfree current List.mem_cons_self
      have hparent := hfree parent (by simp)
      refine ⟨?_, ?_⟩
      · simp [Reader.spelled, OpenGroup.close_addGroup, Group.innerSource_concat,
          Group.innerSource, List.append_assoc]
      · intro group hg
        rcases List.mem_cons.mp hg with rfl | hg
        · rw [OpenGroup.close_addGroup]
          exact hparent.concat ⟨Text.braceFree_empty, hcurrent, Text.braceFree_empty⟩
        · exact hfree group (by simp [hg])
  · simp only [Reader.step, if_neg hopen, if_neg hclose] at hs
    cases hs
    refine ⟨?_, ?_⟩
    · simp [Reader.spelled, OpenGroup.close_push, Group.innerSource_concat, Group.innerSource,
        List.append_assoc]
    · intro group hg
      rcases List.mem_cons.mp hg with rfl | hg
      · rw [OpenGroup.close_push]
        have hc : Text.BraceFree (String.ofList [c]) := by simp [Text.BraceFree, hopen, hclose]
        exact (hfree current List.mem_cons_self).concat hc
      · exact hfree group (List.mem_cons_of_mem _ hg)

theorem HasRead.read {reader : Reader} {before cs : List Char} {tree : Group}
    (h : reader.HasRead before) (hr : reader.read cs = .ok tree) :
    tree.BraceFree ∧ tree.innerSource.toList = before ++ cs := by
  induction cs generalizing reader before with
  | nil =>
    obtain ⟨offset, current, outer⟩ := reader
    cases outer with
    | nil =>
      cases hr
      exact ⟨h.braceFree current List.mem_cons_self, by simpa [Reader.spelled] using h.spelled⟩
    | cons parent outer => cases hr
  | cons c cs ih =>
    rw [Reader.read] at hr
    cases hs : reader.step c with
    | error offset => simp [hs] at hr
    | ok next =>
      simp only [hs] at hr
      simpa using ih (h.step hs) hr

end Reader

namespace Group

theorem parse_innerSource {tree : Group} (h : tree.BraceFree) :
    parse tree.innerSource = .ok tree := by
  have hr := Reader.read_innerSource 0 (.startingAt 0) [] h []
  rw [List.append_nil] at hr
  rw [parse, Reader.start, hr]
  simp [Reader.read, Reader.finish, OpenGroup.close_absorb]

theorem parse_eq_ok_iff {source : String} {tree : Group} :
    parse source = .ok tree ↔ tree.BraceFree ∧ tree.innerSource = source := by
  constructor
  · intro h
    obtain ⟨hfree, hsource⟩ := Reader.hasRead_start.read h
    exact ⟨hfree, String.toList_injective (by simpa using hsource)⟩
  · rintro ⟨hfree, rfl⟩
    exact parse_innerSource hfree

theorem parse_append {a b : String} {s t : Group} (ha : parse a = .ok s) (hb : parse b = .ok t) :
    parse (a ++ b) = .ok (s.concat t) := by
  obtain ⟨hs, rfl⟩ := parse_eq_ok_iff.mp ha
  obtain ⟨ht, rfl⟩ := parse_eq_ok_iff.mp hb
  exact parse_eq_ok_iff.mpr ⟨hs.concat ht, innerSource_concat s t⟩

end Group
end BraceTemplate
