import BraceTemplate.Proofs.Tree.Reading
import Mathlib.Logic.ExistsUnique

/-! # Normal trees and the templates that spell them

Seen as a list of pieces, what a group holds could be texts and groups in any order. A list is
normal when texts and groups alternate in it, with a text at both ends, no text has a brace, and
the lists in its groups are normal. The normal lists are just the ones that templates spell, and
each is spelled by a single template.
-/
namespace BraceTemplate

/-- A piece of a template: a text, or a group with the pieces in it. -/
inductive Node where
  | text (content : String)
  | group (children : List Node)

inductive Node.Normal : List Node → Prop where
  | last {content : String} : Text.BraceFree content → Normal [.text content]
  | nest {content : String} {inner rest : List Node} :
    Text.BraceFree content → Normal inner → Normal rest →
      Normal (.text content :: .group inner :: rest)

namespace Group

def children : Group → List Node
  | text head => [.text head]
  | nest head inner rest => .text head :: .group inner.children :: rest.children

theorem children_injective {s t : Group} (h : s.children = t.children) : s = t := by
  induction s generalizing t with
  | text head =>
    cases t with
    | text head' => simpa [children] using h
    | nest head' inner' rest' => simp [children] at h
  | nest head inner rest ihInner ihRest =>
    cases t with
    | text head' => simp [children] at h
    | nest head' inner' rest' =>
      simp only [children, List.cons.injEq, Node.text.injEq, Node.group.injEq] at h
      obtain ⟨rfl, hinner, hrest⟩ := h
      rw [ihInner hinner, ihRest hrest]

theorem BraceFree.normal {tree : Group} (h : tree.BraceFree) : Node.Normal tree.children := by
  induction tree with
  | text head => exact .last h
  | nest head inner rest ihInner ihRest =>
    obtain ⟨hh, hi, hr⟩ := h
    exact .nest hh (ihInner hi) (ihRest hr)

end Group

theorem Node.Normal.exists_tree {children : List Node} (h : Node.Normal children) :
    ∃ tree : Group, tree.children = children ∧ tree.BraceFree := by
  induction h with
  | @last content hc => exact ⟨.text content, rfl, hc⟩
  | @nest content _ _ hc _ _ ihInner ihRest =>
    obtain ⟨inner, rfl, hinner⟩ := ihInner
    obtain ⟨rest, rfl, hrest⟩ := ihRest
    exact ⟨.nest content inner rest, rfl, hc, hinner, hrest⟩

/-- Reading and writing are mutually inverse between accepted templates and normal trees. -/
theorem parse_bijective :
    (∀ (source : String) (tree : Group), Group.parse source = .ok tree →
      Node.Normal tree.children ∧ tree.innerSource = source) ∧
    ∀ children : List Node, Node.Normal children → ∃! source, ∃ tree : Group,
      Group.parse source = .ok tree ∧ tree.children = children ∧ tree.innerSource = source := by
  constructor
  · intro source tree h
    obtain ⟨hfree, hsource⟩ := Group.parse_eq_ok_iff.mp h
    exact ⟨hfree.normal, hsource⟩
  · intro children h
    obtain ⟨tree, rfl, hfree⟩ := h.exists_tree
    refine ⟨tree.innerSource, ⟨tree, Group.parse_innerSource hfree, rfl, rfl⟩, ?_⟩
    rintro source ⟨other, -, hchildren, rfl⟩
    rw [Group.children_injective hchildren]

/-- A group with nothing in it is spelled by two braces, with an empty text on either side. -/
theorem parse_bijective_empty_group :
    (Group.parse "a\x7bb \x7bc\x7d\x7d" =
        .ok (.nest "a" (.nest "b " (.text "c") (.text "")) (.text "")) ∧
      Node.Normal [.text "a", .group [.text "b ", .group [.text "c"], .text ""], .text ""]) ∧
    Node.Normal [.text "", .group [.text ""], .text ""] ∧ ∃! source, ∃ tree : Group,
      Group.parse source = .ok tree ∧
        tree.children = [.text "", .group [.text ""], .text ""] ∧ tree.innerSource = source := by
  have hparse : Group.parse "a\x7bb \x7bc\x7d\x7d" =
      .ok (.nest "a" (.nest "b " (.text "c") (.text "")) (.text "")) := by rfl
  have hempty : Node.Normal [.text "", .group [.text ""], .text ""] :=
    .nest (by decide) (.last (by decide)) (.last (by decide))
  exact ⟨⟨hparse, (parse_bijective.1 _ _ hparse).1⟩, hempty, parse_bijective.2 _ hempty⟩

end BraceTemplate
