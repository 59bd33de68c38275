import BraceTemplate.Macro.Script
import BraceTemplate.Proofs.Text.Tokens
import Mathlib.Logic.Function.Iterate

/-! # Arguments of a macro

A macro takes its arguments off the head of its group, one after the other. It gets the tokens of the head
in order, however many it asks for, and then empty texts. Each time the head loses its front and starts
with no blank; the rest of the group is not touched.
-/
namespace BraceTemplate

namespace Group

@[simp] theorem tail_texts_setHead (group : Group) (head : String) :
    (group.setHead head).texts.tail = group.texts.tail := by
  cases group <;> rfl

theorem token_iterate_dropToken (group : Group) (k : Nat) :
    (dropToken^[k] group).token = (Text.tokens group.head).getD k "" := by
  induction k generalizing group with
  | zero => exact (Text.getD_tokens_zero group.head).symm
  | succ k ih =>
    rw [Function.iterate_succ_apply, ih, head_dropToken, Text.getD_tokens_succ]

theorem groups_iterate_dropToken (group : Group) (k : Nat) :
    (dropToken^[k] group).groups = group.groups := by
  induction k with
  | zero => rfl
  | succ k ih => rw [Function.iterate_succ_apply', groups_dropToken, ih]

theorem tail_texts_iterate_dropToken (group : Group) (k : Nat) :
    (dropToken^[k] group).texts.tail = group.texts.tail := by
  induction k with
  | zero => rfl
  | succ k ih => rw [Function.iterate_succ_apply', dropToken, tail_texts_setHead, ih]

end Group

namespace Script
variable {α : Type} (compile : Group → Visit Fragment)

/-- Takes `n` tokens off the group, and goes on with all of them. -/
def withTokens : (n : Nat) → (next : List String → Script α) → Script α
  | 0, next => next []
  | n + 1, next => takeToken fun token => withTokens n fun others => next (token :: others)

theorem run_withTokens (n : Nat) (next : List String → Script α) (group : Group) :
    (withTokens n next).run compile group =
      (next ((List.range n).map fun k => (Group.dropToken^[k] group).token)).run compile
        (Group.dropToken^[n] group) := by
  induction n generalizing next group with
  | zero => rfl
  | succ n ih =>
    rw [withTokens, run, ih, List.range_succ_eq_map, List.map_cons, List.map_map,
      Function.iterate_succ_apply]
    rfl

/-- The tokens of the head are taken in order, and each leaves a shorter head and all else as it is. -/
theorem run_withTokens_eq (group : Group) :
    (∀ n (next : List String → Script α), (withTokens n next).run compile group =
      (next ((List.range n).map fun k => (Text.tokens group.head).getD k "")).run compile
        (Group.dropToken^[n] group)) ∧
    ∀ k, (Group.dropToken^[k + 1] group).head.toList <:+ (Group.dropToken^[k] group).head.toList ∧
      Text.startsBlank (Group.dropToken^[k + 1] group).head = false ∧
      (Group.dropToken^[k + 1] group).groups = group.groups ∧
      (Group.dropToken^[k + 1] group).texts.tail = group.texts.tail := by
  constructor
  · intro n next
    rw [run_withTokens]
    simp only [Group.token_iterate_dropToken]
  · intro k
    refine ⟨?_, ?_, Group.groups_iterate_dropToken group _, Group.tail_texts_iterate_dropToken group _⟩
    · rw [Function.iterate_succ_apply', Group.head_dropToken]
      exact Text.afterToken_suffix _
    · rw [Function.iterate_succ_apply', Group.head_dropToken]
      exact Text.startsBlank_afterToken _

end Script
end BraceTemplate
