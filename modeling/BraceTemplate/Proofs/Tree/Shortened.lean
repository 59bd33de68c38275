import BraceTemplate.Proofs.Text.Words
import BraceTemplate.Tree.Basic

/-! # Trees with shortened heads

A tree that is used up by macros keeps its form: each group has the groups that it had, and the texts
behind them are what they were. Only the heads get shorter, and only from the front. Putting a group that
is shortened like this in the place of the former one shortens the tree around it like this.
-/
namespace BraceTemplate.Group

/-- `before.Shortens after`: the same tree, in which each group has a suffix of its head left. What a
group holds behind its first nested group has a head that is a text in the middle, and this one stays. -/
inductive Shortens : (before after : Group) → Prop where
  | text {head head' : String} : head'.toList <:+ head.toList → Shortens (.text head) (.text head')
  | nest {head head' : String} {inner inner' rest rest' : Group} :
    head'.toList <:+ head.toList → Shortens inner inner' → Shortens rest rest' →
      rest'.head = rest.head → Shortens (.nest head inner rest) (.nest head' inner' rest')

@[simp] theorem Shortens.refl (group : Group) : group.Shortens group := by
  induction group with
  | text head => exact .text List.suffix_rfl
  | nest head inner rest ihInner ihRest => exact .nest List.suffix_rfl ihInner ihRest rfl

theorem Shortens.trans {before middle after : Group} (h : before.Shortens middle)
    (h' : middle.Shortens after) : before.Shortens after := by
  induction h generalizing after with
  | text hs =>
    cases h' with
    | text hs' => exact .text (hs'.trans hs)
  | nest hs _ _ hhead ihInner ihRest =>
    cases h' with
    | nest hs' hinner' hrest' hhead' =>
      exact .nest (hs'.trans hs) (ihInner hinner') (ihRest hrest') (hhead'.trans hhead)

theorem shortens_setHead (group : Group) {head : String} (h : head.toList <:+ group.head.toList) :
    group.Shortens (group.setHead head) := by
  cases group with
  | text _ => exact .text h
  | nest _ inner rest => exact .nest h (.refl inner) (.refl rest) rfl

theorem shortens_dropToken (group : Group) : group.Shortens group.dropToken :=
  group.shortens_setHead (Text.afterToken_suffix group.head)

/-- What shortens a group under another head shortens it under its own, which stays. -/
theorem Shortens.setHead_head {group left : Group} {head : String}
    (h : (group.setHead head).Shortens left) : group.Shortens (left.setHead group.head) := by
  cases group with
  | text _ =>
    cases h with
    | text _ => exact .text List.suffix_rfl
  | nest _ inner rest =>
    cases h with
    | nest _ hinner hrest hhead => exact .nest List.suffix_rfl hinner hrest hhead

theorem head_setGroup (group new : Group) (i : Nat) : (group.setGroup i new).head = group.head := by
  cases group with
  | text head => rfl
  | nest head inner rest => cases i <;> rfl

theorem Shortens.setGroup {group inner new : Group} {i : Nat} (hi : group.group? i = some inner)
    (h : inner.Shortens new) : group.Shortens (group.setGroup i new) := by
  induction group generalizing i with
  | text head => cases hi
  | nest head first rest _ ih =>
    cases i with
    | zero =>
      cases hi
      exact .nest List.suffix_rfl h (.refl rest) rfl
    | succ i => exact .nest List.suffix_rfl (.refl first) (ih hi) (head_setGroup rest new i)

/-- The group at the address, if there is one, has to be shortened; else there is no change. -/
theorem Shortens.setAt {group new : Group} {address : List Nat}
    (h : ∀ inner, group.at? address = some inner → inner.Shortens new) :
    group.Shortens (group.setAt address new) := by
  induction address generalizing group with
  | nil => exact h group rfl
  | cons i address ih =>
    rw [Group.setAt]
    cases hchild : group.group? i with
    | none => exact .refl group
    | some child =>
      refine .setGroup hchild (ih fun inner hinner => h inner ?_)
      rw [at?, hchild]
      exact hinner

theorem Shortens.setAt_of_eq_some {group inner new : Group} {address : List Nat}
    (haddress : group.at? address = some inner) (h : inner.Shortens new) :
    group.Shortens (group.setAt address new) := by
  refine .setAt fun inner' hinner' => ?_
  rw [haddress, Option.some.injEq] at hinner'
  exact hinner' ▸ h

/-- What one level of a group has in common with what is left of it: all but the front of the head. -/
structure HeadShortened (group left : Group) : Prop where
  head : left.head.toList <:+ group.head.toList
  texts : left.texts.tail = group.texts.tail
  groups : left.groups.length = group.groups.length

theorem texts_eq_cons (group : Group) : group.texts = group.head :: group.texts.tail := by
  cases group <;> rfl

theorem Shortens.headShortened {before after : Group} (h : before.Shortens after) :
    before.HeadShortened after := by
  induction h with
  | text hs => exact ⟨hs, rfl, rfl⟩
  | @nest _ _ _ _ rest rest' hs _ _ hhead _ ihRest =>
    have htexts : rest'.texts = rest.texts := by
      rw [texts_eq_cons rest', texts_eq_cons rest, hhead, ihRest.texts]
    exact ⟨hs, htexts, congrArg (· + 1) ihRest.groups⟩

theorem Shortens.exists_group? {before after inner : Group} (h : before.Shortens after) {i : Nat}
    (hi : before.group? i = some inner) :
    ∃ left, after.group? i = some left ∧ inner.Shortens left := by
  induction h generalizing i with
  | text _ => cases hi
  | nest _ hinner _ _ _ ihRest =>
    cases i with
    | zero =>
      cases hi
      exact ⟨_, rfl, hinner⟩
    | succ i => exact ihRest hi

/-- Every group of the tree is where it was, and is shortened itself. -/
theorem Shortens.exists_at? {before after group : Group} (h : before.Shortens after)
    {address : List Nat} (haddress : before.at? address = some group) :
    ∃ left, after.at? address = some left ∧ group.Shortens left := by
  induction address generalizing before after with
  | nil =>
    cases haddress
    exact ⟨after, rfl, h⟩
  | cons i address ih =>
    obtain ⟨child, hchild, hgroup⟩ := Option.bind_eq_some_iff.mp haddress
    obtain ⟨child', hchild', hshortens⟩ := h.exists_group? hchild
    obtain ⟨left, hleft, hgroup'⟩ := ih hshortens hgroup
    exact ⟨left, Option.bind_eq_some_iff.mpr ⟨child', hchild', hleft⟩, hgroup'⟩

end BraceTemplate.Group
