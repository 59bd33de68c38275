import BraceTemplate.Proofs.Compile.Translation
import BraceTemplate.Proofs.Program.Every
import BraceTemplate.Proofs.Tree.Balance

/-! # Which programs the built-in macros produce

The texts in a compiled program come from texts of the template, so they have no braces; its paths
and names are tokens, and a part that was not compiled is balanced and starts with no blank. These are
the only limits: every such program is spelled out as a template that compiles to it. In the template
empty `out` groups stand in front of all texts, which keeps the texts apart and their blanks in place.
-/
namespace BraceTemplate

/-- Neither a blank nor a brace stands in a token; it may be empty. -/
structure Text.IsToken (text : String) : Prop where
  blankFree : Text.BlankFree text
  braceFree : Text.BraceFree text

/-- Whether a template can give the instruction, whatever its body. -/
def Instruction.Spellable : Instruction → Prop
  | literal text => text ≠ "" ∧ Text.BraceFree text
  | value path => Text.IsToken path
  | location path => Text.IsToken path
  | within path _ => Text.IsToken path
  | ifDefined path _ => Text.IsToken path
  | forEach path _ => Text.IsToken path
  | call name => Text.IsToken name
  | verbatim source => Text.Balanced source ∧ Text.startsBlank source = false

namespace Text

theorem BraceFree.leadingToken {text : String} (h : BraceFree text) :
    IsToken (leadingToken text) := by
  refine ⟨blankFree_leadingToken text, h.subset ?_⟩
  rw [toList_leadingToken]
  exact (List.takeWhile_prefix _).subset

theorem BraceFree.afterToken {text : String} (h : BraceFree text) :
    BraceFree (afterToken text) := by
  apply h.subset
  rw [toList_afterToken]
  exact ((List.dropWhile_suffix _).trans (List.dropWhile_suffix _)).subset

theorem BraceFree.dropBlanks {text : String} (h : BraceFree text) :
    BraceFree (dropBlanks text) := by
  apply h.subset
  rw [toList_dropBlanks]
  exact (List.dropWhile_suffix _).subset

end Text

section Compiled
open Instruction

theorem every_literals {head : String} (h : Text.BraceFree head) :
    Fragment.Every Spellable (Script.literals head) := by
  unfold Script.literals
  split
  · exact .nil
  · rename_i hne
    exact Fragment.every_singleton_iff.mpr ⟨⟨hne, h⟩, .nil⟩

theorem every_behind {head : String} (h : Text.BraceFree head) {parts : Outcome Fragment}
    (hparts : ∀ fragment, parts = .ok fragment → fragment.Every Spellable) {fragment : Fragment}
    (hf : Outcome.behind head parts = .ok fragment) : fragment.Every Spellable := by
  obtain ⟨others, ho, rfl⟩ := Outcome.map_eq_ok_iff.mp hf
  exact Fragment.every_append_iff.mpr ⟨every_literals h, hparts others ho⟩

theorem every_leaf (i : Instruction) (hi : i.Spellable) (hbody : i.body = [])
    {fragment : Fragment} (hf : (.ok [i] : Outcome Fragment) = .ok fragment) :
    fragment.Every Spellable := by
  cases hf
  refine Fragment.every_singleton_iff.mpr ⟨hi, ?_⟩
  rw [hbody]
  exact .nil

theorem every_block (make : Fragment → Instruction) (hmake : ∀ body, (make body).Spellable)
    (hbody : ∀ body, (make body).body = body) {bodies : Outcome Fragment}
    (hbodies : ∀ body, bodies = .ok body → body.Every Spellable) {fragment : Fragment}
    (hf : bodies.map (fun body => [make body]) = .ok fragment) : fragment.Every Spellable := by
  obtain ⟨body, hb, rfl⟩ := Outcome.map_eq_ok_iff.mp hf
  refine Fragment.every_singleton_iff.mpr ⟨hmake body, ?_⟩
  rw [hbody]
  exact hbodies body hb

theorem spellable_verbatim {group : Group} (hgroup : group.BraceFree) :
    Spellable (.verbatim (group.setHead (Text.afterToken group.head)).innerSource) := by
  refine ⟨(hgroup.setHead hgroup.head.afterToken).balanced, ?_⟩
  rw [Group.startsBlank_innerSource, Group.head_setHead]
  exact Text.startsBlank_afterToken group.head

theorem every_expand {group : Group} (hgroup : group.BraceFree) {parts : Outcome Fragment}
    (hparts : ∀ fragment, parts = .ok fragment → fragment.Every Spellable) {fragment : Fragment}
    (h : Builtin.expand group parts = .ok fragment) : fragment.Every Spellable := by
  have hargument := hgroup.head.afterToken
  have hpath := hargument.leadingToken
  have hbodies : ∀ body, Outcome.behind (Text.afterToken (Text.afterToken group.head)) parts =
      .ok body → body.Every Spellable := fun _ => every_behind hargument.afterToken hparts
  rw [Builtin.expand] at h
  split at h
  · exact every_leaf (.value _) hpath rfl h
  · exact every_block (.within _) (fun _ => hpath) (fun _ => rfl) hbodies h
  · exact every_block (.ifDefined _) (fun _ => hpath) (fun _ => rfl) hbodies h
  · exact every_block (.forEach _) (fun _ => hpath) (fun _ => rfl) hbodies h
  · exact every_leaf (.location _) hpath rfl h
  · exact every_behind hargument hparts h
  · exact every_leaf (.verbatim _) (spellable_verbatim hgroup) rfl h
  · exact every_leaf (.call _) hpath rfl h
  · cases h

theorem every_parts {group : Group} (hgroup : group.BraceFree) {fragment : Fragment}
    (h : group.parts = .ok fragment) : fragment.Every Spellable := by
  induction group generalizing fragment with
  | text head =>
    cases h
    exact .nil
  | nest head inner rest ihInner ihRest =>
    obtain ⟨_, hinner, hrest⟩ := hgroup
    obtain ⟨first, hfirst, h⟩ := Outcome.bind_eq_ok_iff.mp h
    obtain ⟨others, hothers, rfl⟩ := Outcome.map_eq_ok_iff.mp h
    refine Fragment.every_append_iff.mpr ⟨?_, ?_⟩
    · exact every_expand hinner (fun _ => ihInner hinner) hfirst
    · exact every_behind hrest.head (fun _ => ihRest hrest) hothers

theorem every_content {group : Group} (hgroup : group.BraceFree) {fragment : Fragment}
    (h : group.content = .ok fragment) : fragment.Every Spellable :=
  every_behind hgroup.head (fun _ => every_parts hgroup) h

end Compiled

/-- The head that has `name` as its token and `argument` behind it. -/
def Text.invocation (name argument : String) : String := name ++ " " ++ argument

namespace Instruction

def trailing : Instruction → String
  | literal text => text
  | _ => ""

mutual

/-- A group for the instruction. Texts stand behind an empty group of their own. -/
def spell : Instruction → Group
  | literal _ => .text "out"
  | value path => .text (Text.invocation "." path)
  | location path => .text (Text.invocation "path" path)
  | within path body => spellBehind (Text.invocation "->" path) body
  | ifDefined path body => spellBehind (Text.invocation "has" path) body
  | forEach path body => spellBehind (Text.invocation "each" path) body
  | call name => .text (Text.invocation "fn" name)
  | verbatim source =>
    match Group.parse source with
    | .ok tree => tree.setHead (Text.invocation "literal" tree.head)
    | .error _ => .text "literal"
termination_by structural i => i

def spellBehind (head : String) : List Instruction → Group
  | [] => .text head
  | i :: rest => .nest head (spell i) (spellBehind (trailing i) rest)
termination_by structural body => body

end

/-- What the group of the instruction compiles to, without the text behind it. -/
def ownFragment : Instruction → Fragment
  | literal _ => []
  | i => [i]

theorem ownFragment_append_trailing {i : Instruction} (h : i.Spellable) :
    i.ownFragment ++ Script.literals i.trailing = [i] := by
  cases i with
  | literal text => simp [ownFragment, trailing, Script.literals, h.1]
  | _ => rfl

@[simp] theorem head_spellBehind (head : String) (body : Fragment) :
    (spellBehind head body).head = head := by
  cases body <;> rfl

end Instruction

namespace Text

theorem leadingToken_invocation {name : String} (h : BlankFree name) (argument : String) :
    leadingToken (invocation name argument) = name := leadingToken_word_blank h argument

theorem afterToken_invocation {name argument : String} (h : BlankFree name)
    (ha : startsBlank argument = false) : afterToken (invocation name argument) = argument := by
  rw [invocation, afterToken_word_blank h, dropBlanks_eq_self ha]

theorem BraceFree.invocation {name argument : String} (h : BraceFree name)
    (ha : BraceFree argument) : BraceFree (invocation name argument) :=
  braceFree_append.mpr ⟨braceFree_append.mpr ⟨h, by decide⟩, ha⟩

end Text

section Spelled
open Instruction

theorem token_argument_of_head {group : Group} {name argument : String}
    (hhead : group.head = Text.invocation name argument) (hname : Text.BlankFree name)
    (hargument : Text.startsBlank argument = false) :
    group.token = name ∧ Text.afterToken group.head = argument := by
  rw [Group.token, hhead]
  exact ⟨Text.leadingToken_invocation hname argument, Text.afterToken_invocation hname hargument⟩

theorem translation_leaf {name path : String} {make : String → Instruction}
    (hmake : ∀ group parts, group.token = name → Builtin.expand group parts =
      .ok [make (Text.leadingToken (Text.afterToken group.head))])
    (hname : Text.BlankFree name) (hpath : Text.IsToken path) :
    (Group.text (Text.invocation name path)).translation = .ok [make path] := by
  have hhead : (Group.text (Text.invocation name path)).head = Text.invocation name path := rfl
  obtain ⟨htoken, hargument⟩ := token_argument_of_head hhead hname hpath.blankFree.startsBlank
  rw [Group.translation, hmake _ _ htoken, hargument, Text.leadingToken_word hpath.blankFree]

theorem translation_block {name path : String} {make : String → Fragment → Instruction}
    (hmake : ∀ group parts, group.token = name → Builtin.expand group parts =
      (Outcome.behind (Text.afterToken (Text.afterToken group.head)) parts).map
        fun body => [make (Text.leadingToken (Text.afterToken group.head)) body])
    (hname : Text.BlankFree name) (hpath : Text.IsToken path) {body : Fragment}
    (hbody : (spellBehind (Text.invocation name path) body).parts = .ok body) :
    (spellBehind (Text.invocation name path) body).translation = .ok [make path body] := by
  have hhead := head_spellBehind (Text.invocation name path) body
  obtain ⟨htoken, hargument⟩ := token_argument_of_head hhead hname hpath.blankFree.startsBlank
  rw [Group.translation, hmake _ _ htoken, hargument, Text.leadingToken_word hpath.blankFree,
    Text.afterToken_word hpath.blankFree, hbody]
  rfl

theorem translation_verbatim {source : String} (h : Text.startsBlank source = false) {tree : Group}
    (hparse : Group.parse source = .ok tree) :
    (tree.setHead (Text.invocation "literal" tree.head)).translation = .ok [.verbatim source] := by
  obtain ⟨-, rfl⟩ := Group.parse_eq_ok_iff.mp hparse
  rw [Group.startsBlank_innerSource] at h
  have hhead := Group.head_setHead tree (Text.invocation "literal" tree.head)
  obtain ⟨htoken, hargument⟩ := token_argument_of_head hhead (by decide) h
  rw [Group.translation, Builtin.expand, htoken, hargument]
  cases tree <;> rfl

theorem translation_spell {i : Instruction} (h : i.Spellable)
    (hbody : ∀ head, (spellBehind head i.body).parts = .ok i.body) :
    i.spell.translation = .ok i.ownFragment := by
  cases i with
  | literal text =>
    have htoken : (Group.text "out").token = "out" := Text.leadingToken_word (by decide)
    have hargument : Text.afterToken (Group.text "out").head = "" := Text.afterToken_word (by decide)
    rw [spell, Group.translation, Builtin.expand, htoken, hargument]
    rfl
  | value path =>
    exact translation_leaf (fun _ _ ht => by simp only [Builtin.expand, ht]) (by decide) h
  | location path =>
    exact translation_leaf (fun _ _ ht => by simp only [Builtin.expand, ht]) (by decide) h
  | call name =>
    exact translation_leaf (fun _ _ ht => by simp only [Builtin.expand, ht]) (by decide) h
  | within path body =>
    exact translation_block (fun _ _ ht => by simp only [Builtin.expand, ht]) (by decide) h (hbody _)
  | ifDefined path body =>
    exact translation_block (fun _ _ ht => by simp only [Builtin.expand, ht]) (by decide) h (hbody _)
  | forEach path body =>
    exact translation_block (fun _ _ ht => by simp only [Builtin.expand, ht]) (by decide) h (hbody _)
  | verbatim source =>
    obtain ⟨tree, hparse⟩ := Group.exists_parse_iff.mpr h.1
    rw [spell, hparse]
    exact translation_verbatim h.2 hparse

theorem parts_spellBehind {body : Fragment} (h : body.Every Spellable) (head : String) :
    (spellBehind head body).parts = .ok body := by
  induction body using Fragment.induction generalizing head with
  | nil => rfl
  | cons i rest ihBody ihRest =>
    obtain ⟨hi, hbody, hrest⟩ := Fragment.every_cons_iff.mp h
    have hspell := translation_spell hi (ihBody hbody)
    rw [Group.translation] at hspell
    rw [spellBehind, Group.parts, hspell, ihRest hrest, head_spellBehind]
    -- what the group gives and the text behind it are the one instruction
    change Except.ok (i.ownFragment ++ (Script.literals i.trailing ++ rest)) = .ok (i :: rest)
    rw [← List.append_assoc, ownFragment_append_trailing hi]
    rfl

theorem braceFree_spellBehind {body : Fragment} (h : body.Every Spellable) {head : String}
    (hhead : Text.BraceFree head) : (spellBehind head body).BraceFree := by
  induction body using Fragment.induction generalizing head with
  | nil => exact hhead
  | cons i rest ihBody ihRest =>
    obtain ⟨hi, hbody, hrest⟩ := Fragment.every_cons_iff.mp h
    have hinvocation {name path : String} (hname : Text.BraceFree name) (hpath : Text.IsToken path) :
        Text.BraceFree (Text.invocation name path) := hname.invocation hpath.braceFree
    refine ⟨hhead, ?_, ihRest hrest ?_⟩
    · cases i with
      | literal text => exact (by decide : Text.BraceFree "out")
      | value path => exact hinvocation (by decide) hi
      | location path => exact hinvocation (by decide) hi
      | call name => exact hinvocation (by decide) hi
      | within path body => exact ihBody hbody (hinvocation (by decide) hi)
      | ifDefined path body => exact ihBody hbody (hinvocation (by decide) hi)
      | forEach path body => exact ihBody hbody (hinvocation (by decide) hi)
      | verbatim source =>
        obtain ⟨tree, hparse⟩ := Group.exists_parse_iff.mpr hi.1
        have hfree := (Group.parse_eq_ok_iff.mp hparse).1
        rw [spell, hparse]
        exact hfree.setHead (Text.BraceFree.invocation (by decide) hfree.head)
    · cases i with
      | literal text => exact hi.2
      | _ => exact Text.braceFree_empty

end Spelled

/-- A program comes from a template just when all its instructions are spellable. -/
theorem exists_compileSource_iff (program : Program) :
    (∃ source, ((Compiler.ofMacros .empty).compileSource source).outcome = .ok program) ↔
      program.body.Every Instruction.Spellable := by
  have hbuiltin : Compiler.FindsBuiltin (Compiler.ofMacros .empty).macros :=
    Compiler.findsBuiltin_ofMacros Table.find?_empty
  constructor
  · rintro ⟨source, h⟩
    obtain ⟨tree, hparse⟩ := Compiler.exists_parse_of_compileSource h
    have hfree := (Group.parse_eq_ok_iff.mp hparse).1
    rw [Compiler.outcome_compileSource hbuiltin hparse] at h
    obtain ⟨body, hcontent, rfl⟩ := Outcome.map_eq_ok_iff.mp h
    exact every_content (hfree.setHead hfree.head.dropBlanks) hcontent
  · intro h
    have hparse := Group.parse_innerSource (braceFree_spellBehind h Text.braceFree_empty)
    refine ⟨(Instruction.spellBehind "" program.body).innerSource, ?_⟩
    rw [Compiler.outcome_compileSource hbuiltin hparse, Group.content, Group.trimmed,
      Group.parts_setHead, parts_spellBehind h, Group.head_setHead, Instruction.head_spellBehind]
    rfl

end BraceTemplate
