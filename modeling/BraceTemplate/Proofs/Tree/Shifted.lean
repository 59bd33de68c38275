import BraceTemplate.Proofs.Tree.Fault

/-! # Text in front of a template

A text without braces in front of a template moves every brace by the length of the text. The reader
that starts behind such a text keeps ahead of one that starts at the template by just this distance, so
where the one refuses a brace the other does, too.
-/
namespace BraceTemplate

theorem OpenGroup.starts_eq_nil_iff {group : OpenGroup} {outer : List OpenGroup} :
    group.starts outer = [] ↔ outer = [] := by
  cases outer <;> simp [starts]

namespace Reader

/-- The readers have the same braces open, and the second one is ahead of the first by `k`. -/
structure Precedes (k : Nat) (reader ahead : Reader) : Prop where
  offset : ahead.offset = reader.offset + k
  starts : ahead.current.starts ahead.outer = (reader.current.starts reader.outer).map (· + k)

theorem Precedes.outer_eq_nil_iff {k : Nat} {reader ahead : Reader} (h : reader.Precedes k ahead) :
    ahead.outer = [] ↔ reader.outer = [] := by
  have hstarts := h.starts
  rw [← @OpenGroup.starts_eq_nil_iff ahead.current, hstarts, List.map_eq_nil_iff,
    OpenGroup.starts_eq_nil_iff]

theorem Precedes.step {k : Nat} {reader ahead next : Reader} {c : Char}
    (h : reader.Precedes k ahead) (hs : reader.step c = .ok next) :
    ∃ next', ahead.step c = .ok next' ∧ next.Precedes k next' := by
  have houter := h.outer_eq_nil_iff
  obtain ⟨offset, current, outer⟩ := reader
  obtain ⟨offset', current', outer'⟩ := ahead
  obtain ⟨rfl, hstarts⟩ := h
  by_cases hopen : c = '\x7b'
  · subst hopen
    cases hs
    refine ⟨_, rfl, by simp only; omega, ?_⟩
    simpa [OpenGroup.starts, OpenGroup.startingAt] using hstarts
  by_cases hclose : c = '\x7d'
  · subst hclose
    cases outer with
    | nil => simp [Reader.step] at hs
    | cons parent outer =>
      cases hs
      cases outer' with
      | nil => simp at houter
      | cons parent' outer' =>
        have hparents := (List.cons.inj hstarts).2
        exact ⟨_, rfl, by simp only; omega, by simpa using hparents⟩
  · simp only [Reader.step, if_neg hopen, if_neg hclose] at hs ⊢
    cases hs
    exact ⟨_, rfl, by simp only; omega, by simpa using hstarts⟩

/-- A brace that closes nothing for the one reader closes nothing for the other. -/
theorem Precedes.step_error {k fault : Nat} {reader ahead : Reader} {c : Char}
    (h : reader.Precedes k ahead) (hs : reader.step c = .error fault) :
    ahead.step c = .error (fault + k) := by
  have houter := h.outer_eq_nil_iff
  have hoffset := h.offset
  unfold Reader.step at hs ⊢
  split at hs
  · cases hs
  rename_i hopen
  split at hs
  · rename_i hclose
    split at hs
    · rename_i hnil
      cases hs
      rw [if_neg hopen, if_pos hclose, houter.mpr hnil, hoffset]
    · cases hs
  · cases hs

theorem Precedes.finish_error {k fault : Nat} {reader ahead : Reader}
    (h : reader.Precedes k ahead) (hf : reader.finish = .error fault) :
    ahead.finish = .error (fault + k) := by
  have houter := h.outer_eq_nil_iff
  obtain ⟨offset, current, outer⟩ := reader
  obtain ⟨offset', current', outer'⟩ := ahead
  obtain ⟨-, hstarts⟩ := h
  cases outer with
  | nil => cases hf
  | cons parent outer =>
    cases hf
    cases outer' with
    | nil => simp at houter
    | cons parent' outer' =>
      have hstart : current'.start = current.start + k := (List.cons.inj hstarts).1
      rw [finish, hstart]

theorem Precedes.read_error {k fault : Nat} {reader ahead : Reader} {cs : List Char}
    (h : reader.Precedes k ahead) (hr : reader.read cs = .error fault) :
    ahead.read cs = .error (fault + k) := by
  induction cs generalizing reader ahead with
  | nil => exact h.finish_error hr
  | cons c cs ih =>
    rw [read] at hr ⊢
    cases hs : reader.step c with
    | error offset =>
      rw [hs] at hr
      cases hr
      rw [h.step_error hs]
    | ok next =>
      rw [hs] at hr
      obtain ⟨next', hs', hnext⟩ := h.step hs
      rw [hs']
      exact ih hnext hr

end Reader

namespace Group

theorem parse_append_ok {front source : String} {tree : Group} (hfront : Text.BraceFree front)
    (h : parse source = .ok tree) : parse (front ++ source) = .ok (tree.setHead (front ++ tree.head)) := by
  obtain ⟨hfree, rfl⟩ := parse_eq_ok_iff.mp h
  have hhead := Text.braceFree_append.mpr ⟨hfront, hfree.head⟩
  exact parse_eq_ok_iff.mpr ⟨hfree.setHead hhead, innerSource_setHead_append tree front⟩

theorem parse_append_error {front source : String} {fault : Nat} (hfront : Text.BraceFree front)
    (h : parse source = .error fault) : parse (front ++ source) = .error (fault + front.length) := by
  have hread := Reader.read_write 0 (.startingAt 0) [] hfront source.toList
  have hahead : Reader.start.Precedes front.length
      ⟨0 + front.toList.length, (OpenGroup.startingAt 0).write front.toList, []⟩ := by
    constructor
    · rw [String.length_toList]
      rfl
    · rfl
  rw [parse, String.toList_append, Reader.start, hread]
  exact hahead.read_error h

end Group
end BraceTemplate
