import BraceTemplate.Tree.Basic

/-! # Trees without braces in their texts, and trees put one behind the other

Putting one tree behind another writes the head of the second at the end of the last text of the
first. The source of the result is the two sources, one behind the other, so trees are a monoid
that the source maps to texts.
-/
namespace BraceTemplate

def Text.BraceFree (text : String) : Prop := ∀ c ∈ text.toList, c ≠ '\x7b' ∧ c ≠ '\x7d'

instance (text : String) : Decidable (Text.BraceFree text) :=
  List.decidableBAll (fun c => c ≠ '\x7b' ∧ c ≠ '\x7d') text.toList

@[simp] theorem Text.braceFree_empty : Text.BraceFree "" := by simp [Text.BraceFree]

theorem Text.braceFree_append {a b : String} :
    Text.BraceFree (a ++ b) ↔ Text.BraceFree a ∧ Text.BraceFree b := by
  simp only [Text.BraceFree, String.toList_append, List.mem_append]
  exact ⟨fun h => ⟨fun c hc => h c (.inl hc), fun c hc => h c (.inr hc)⟩,
    fun h c hc => hc.elim (h.1 c) (h.2 c)⟩

theorem Text.BraceFree.subset {a b : String} (h : Text.BraceFree b)
    (hs : a.toList ⊆ b.toList) : Text.BraceFree a := fun c hc => h c (hs hc)

namespace Group

/-- No text of the group has a brace, at any level. -/
def BraceFree : Group → Prop
  | text head => Text.BraceFree head
  | nest head inner rest => Text.BraceFree head ∧ inner.BraceFree ∧ rest.BraceFree

def concat : Group → Group → Group
  | text head, next => next.setHead (head ++ next.head)
  | nest head inner rest, next => nest head inner (rest.concat next)

theorem BraceFree.head {group : Group} (h : group.BraceFree) : Text.BraceFree group.head := by
  cases group with
  | text head => exact h
  | nest head inner rest => exact h.1

theorem BraceFree.setHead {group : Group} (h : group.BraceFree) {head : String}
    (hh : Text.BraceFree head) : (group.setHead head).BraceFree := by
  cases group with
  | text _ => exact hh
  | nest _ inner rest => exact ⟨hh, h.2⟩

theorem BraceFree.concat {first next : Group} (hf : first.BraceFree) (hn : next.BraceFree) :
    (first.concat next).BraceFree := by
  induction first with
  | text head => exact hn.setHead (Text.braceFree_append.mpr ⟨hf, hn.head⟩)
  | nest head inner rest _ ih =>
    obtain ⟨hh, hi, hr⟩ := hf
    exact ⟨hh, hi, ih hr⟩

theorem innerSource_setHead_append (group : Group) (head : String) :
    (group.setHead (head ++ group.head)).innerSource = head ++ group.innerSource := by
  cases group <;> simp [setHead, Group.head, innerSource, String.append_assoc]

theorem innerSource_concat (first next : Group) :
    (first.concat next).innerSource = first.innerSource ++ next.innerSource := by
  induction first with
  | text head => exact innerSource_setHead_append next head
  | nest head inner rest _ ih => simp [concat, innerSource, ih, String.append_assoc]

@[simp] theorem text_empty_concat (group : Group) : (text "").concat group = group := by
  simp [concat]

theorem concat_pieces (head : String) (inner rest : Group) :
    (text head).concat ((nest "" inner (text "")).concat rest) = nest head inner rest := by
  rw [concat, concat, text_empty_concat]
  simp [setHead, Group.head]

theorem concat_assoc (a b c : Group) : (a.concat b).concat c = a.concat (b.concat c) := by
  induction a with
  | text head =>
    cases b <;> cases c <;> simp [concat, setHead, Group.head, String.append_assoc]
  | nest head inner rest _ ih => simp [concat, ih]

end Group
end BraceTemplate
