import BraceTemplate.Proofs.Compile.Translation
import BraceTemplate.Proofs.Tree.Balance
import BraceTemplate.Proofs.Tree.Nested
import Mathlib.Data.List.Pairwise

/-! # How compiling a template ends

With the built-in macros a template compiles to its translation, if it has one. It has none when a
group names no macro. Not all groups are looked up, though: what is nested in a sealed group, whose
macro takes no body or takes it as it is written, may have any names. Of several groups at fault the
one whose brace opens first is reported.
-/
namespace BraceTemplate

def Builtin.names : List String := macros.map Prod.fst

theorem Builtin.find?_table_eq_none {name : String} (h : name ∉ names) : table.find? name = none := by
  rw [find?_table, List.lookup_eq_none_iff]
  simp_all [names, macros]

namespace Group

/-- Whether what is nested in the group is not compiled. -/
def Sealed (group : Group) : Prop := group.token ∈ [".", "path", "fn", "literal"]

instance (group : Group) : Decidable group.Sealed := List.instDecidableMemOfLawfulBEq _ _

end Group

namespace Nested

/-- Whether the group is compiled: none of the groups around it is sealed. -/
def Live (n : Nested) : Prop := ∀ group ∈ n.around, ¬ group.Sealed

def Unknown (n : Nested) : Prop := n.group.token ∉ Builtin.names

instance (n : Nested) : Decidable n.Live :=
  inferInstanceAs (Decidable (∀ group ∈ n.around, ¬ group.Sealed))

instance (n : Nested) : Decidable n.Unknown := inferInstanceAs (Decidable (¬ _ ∈ Builtin.names))

/-- Whether the group is looked up in vain, and none of `groups` that opens before it is. -/
structure IsFirstFault (n : Nested) (groups : List Nested) : Prop where
  mem : n ∈ groups
  live : n.Live
  unknown : n.Unknown
  first : ∀ m ∈ groups, m.Live → m.Unknown → n.start ≤ m.start

end Nested

/-- The first group that is looked up in vain. -/
def firstFault (groups : List Nested) : Option Nested := groups.find? fun n => n.Live ∧ n.Unknown

theorem firstFault_append (groups others : List Nested) :
    firstFault (groups ++ others) = (firstFault groups).or (firstFault others) :=
  List.find?_append

theorem firstFault_eq_none_iff {groups : List Nested} :
    firstFault groups = none ↔ ∀ n ∈ groups, n.Live → ¬ n.Unknown := by
  simp [firstFault, List.find?_eq_none]

theorem isFirstFault_of_firstFault {groups : List Nested} {n : Nested}
    (hstart : groups.Pairwise fun m n => m.start < n.start) (h : firstFault groups = some n) :
    n.IsFirstFault groups := by
  obtain ⟨hfault, before, after, rfl, hbefore⟩ := List.find?_eq_some_iff_append.mp h
  obtain ⟨hlive, hunknown⟩ : n.Live ∧ n.Unknown := by simpa using hfault
  refine ⟨by simp, hlive, hunknown, ?_⟩
  intro m hm hmlive hmunknown
  rcases List.mem_append.mp hm with hm | hm
  · have := hbefore m hm
    simp [hmlive, hmunknown] at this
  · rcases List.mem_cons.mp hm with rfl | hm
    · exact le_rfl
    · have hafter := (List.pairwise_append.mp hstart).2.1
      exact ((List.pairwise_cons.mp hafter).1 m hm).le

theorem firstFault_eq_some_iff {groups : List Nested} {n : Nested}
    (hstart : groups.Pairwise fun m n => m.start < n.start) :
    firstFault groups = some n ↔ n.IsFirstFault groups := by
  constructor
  · exact isFirstFault_of_firstFault hstart
  · intro h
    cases hf : firstFault groups with
    | none => exact absurd h.unknown (firstFault_eq_none_iff.mp hf n h.mem h.live)
    | some m =>
      have hm := isFirstFault_of_firstFault hstart hf
      have hle := h.first m hm.mem hm.live hm.unknown
      have hge := hm.first n h.mem h.live h.unknown
      have hsymm : Std.Symm fun a b : Nested => a.start ≠ b.start := ⟨fun _ _ => Ne.symm⟩
      have hdistinct : groups.Pairwise fun a b => a.start ≠ b.start := hstart.imp fun hlt => hlt.ne
      by_contra hne
      have := hdistinct.forall hm.mem h.mem fun heq => hne (congrArg some heq)
      omega

namespace Outcome

/-- Whether there is a fragment, or the failure that the group at fault asks for. -/
def Blames (outcome : Outcome Fragment) : (fault : Option Nested) → Prop
  | none => ∃ fragment, outcome = .ok fragment
  | some n => outcome = .error (.unknownMacro n.group.token)

theorem Blames.map {outcome : Outcome Fragment} {fault : Option Nested} (h : outcome.Blames fault)
    (f : Fragment → Fragment) : Blames (outcome.map f) fault := by
  cases fault with
  | none =>
    obtain ⟨fragment, rfl⟩ := h
    exact ⟨f fragment, rfl⟩
  | some n =>
    cases h
    rfl

theorem Blames.bind {first next : Outcome Fragment} {fault fault' : Option Nested}
    (hfirst : first.Blames fault) (hnext : next.Blames fault') :
    Blames (first.bind fun fragment => next.map (fragment ++ ·)) (fault.or fault') := by
  cases fault with
  | none =>
    obtain ⟨fragment, rfl⟩ := hfirst
    exact hnext.map (fragment ++ ·)
  | some n =>
    cases hfirst
    rfl

end Outcome

namespace Builtin
open Outcome

theorem expand_unknown {group : Group} (h : group.token ∉ names) (parts : Outcome Fragment) :
    expand group parts = .error (.unknownMacro group.token) := by
  rw [expand]
  split
  all_goals simp_all [names, macros]

theorem blames_expand {group : Group} (h : group.token ∈ names) {parts : Outcome Fragment}
    {fault : Option Nested} (hsealed : group.Sealed → fault = none)
    (hparts : ¬ group.Sealed → parts.Blames fault) : (expand group parts).Blames fault := by
  have hleaf (i : Instruction) (hs : group.Sealed) : Blames (.ok [i]) fault := by
    rw [hsealed hs]
    exact ⟨[i], rfl⟩
  have hbody (head : String) (hs : ¬ group.Sealed) : (behind head parts).Blames fault :=
    (hparts hs).map _
  rw [expand]
  split
  next hname => exact hleaf _ (by simp [Group.Sealed, hname])
  next hname => exact (hbody _ (by simp [Group.Sealed, hname])).map _
  next hname => exact (hbody _ (by simp [Group.Sealed, hname])).map _
  next hname => exact (hbody _ (by simp [Group.Sealed, hname])).map _
  next hname => exact hleaf _ (by simp [Group.Sealed, hname])
  next hname => exact hbody _ (by simp [Group.Sealed, hname])
  next hname => exact hleaf _ (by simp [Group.Sealed, hname])
  next hname => exact hleaf _ (by simp [Group.Sealed, hname])
  next => simp_all [names, macros]

end Builtin

namespace Group
open Outcome

theorem firstFault_eq_none_of_sealed {group outer : Group} {start : Nat} {around : List Group}
    (houter : outer ∈ around) (hsealed : outer.Sealed) :
    firstFault (group.nestedFrom start around) = none := by
  rw [firstFault, List.find?_eq_none]
  intro n hn
  have hlive : ¬ n.Live := fun h => h outer (mem_around_of_mem_nestedFrom hn houter) hsealed
  simp [hlive]

/-- A group and all that is nested in it, if it opens at an offset and inside other groups. -/
def nestedAt (opening : Nat) (around : List Group) (group : Group) : List Nested :=
  ⟨opening, around, group⟩ :: group.nestedFrom (opening + 1) (group :: around)

theorem nestedFrom_nest (start : Nat) (around : List Group) (head : String) (inner rest : Group) :
    (nest head inner rest).nestedFrom start around =
      inner.nestedAt (start + head.length) around ++
        rest.nestedFrom (start + head.length + inner.source.length) around := rfl

theorem blames_translation {group : Group} (opening : Nat) {around : List Group}
    (haround : ∀ outer ∈ around, ¬ outer.Sealed)
    (hparts : ¬ group.Sealed →
      group.parts.Blames (firstFault (group.nestedFrom (opening + 1) (group :: around)))) :
    group.translation.Blames (firstFault (group.nestedAt opening around)) := by
  have hlive : Nested.Live ⟨opening, around, group⟩ := haround
  rw [nestedAt, ← List.singleton_append, firstFault_append]
  by_cases hname : group.token ∈ Builtin.names
  · have hfirst : firstFault [⟨opening, around, group⟩] = none := by
      simp [firstFault, Nested.Unknown, hname]
    rw [hfirst, Option.none_or]
    exact Builtin.blames_expand hname (firstFault_eq_none_of_sealed List.mem_cons_self) hparts
  · have hfirst : firstFault [⟨opening, around, group⟩] = some ⟨opening, around, group⟩ := by
      simp [firstFault, Nested.Unknown, hname, hlive]
    rw [hfirst]
    exact Builtin.expand_unknown hname _

theorem blames_parts (group : Group) (start : Nat) {around : List Group}
    (haround : ∀ outer ∈ around, ¬ outer.Sealed) :
    group.parts.Blames (firstFault (group.nestedFrom start around)) := by
  induction group generalizing start around with
  | text head => exact ⟨[], rfl⟩
  | nest head inner rest ihInner ihRest =>
    have hrest := (ihRest (start + head.length + inner.source.length) haround).map
      (Script.literals rest.head ++ ·)
    have hinner := blames_translation (start + head.length) haround fun hopen =>
      ihInner (start + head.length + 1) (List.forall_mem_cons.mpr ⟨hopen, haround⟩)
    rw [parts, nestedFrom_nest, firstFault_append]
    exact hinner.bind hrest

/-- Compiling a group fails for the first fault in it, if there is one. -/
theorem translation_blames (group : Group) (opening : Nat) {around : List Group}
    (haround : ∀ outer ∈ around, ¬ outer.Sealed) :
    group.translation.Blames (firstFault (group.nestedAt opening around)) :=
  blames_translation opening haround fun hopen =>
    group.blames_parts (opening + 1) (List.forall_mem_cons.mpr ⟨hopen, haround⟩)

end Group

namespace Compiler
open Outcome

theorem findsBuiltin : FindsBuiltin (ofMacros .empty).macros :=
  findsBuiltin_ofMacros Table.find?_empty

/-- A template compiles just when it can be read and the tree has a translation as the group `out`. -/
theorem compileSource_eq_ok_iff (source : String) (program : Program) :
    ((ofMacros .empty).compileSource source).outcome = .ok program ↔
      ∃ tree, Group.parse source = .ok tree ∧ (rootOf tree).translation = .ok program.body := by
  have hsteps {tree : Group} (hparse : Group.parse source = .ok tree) :
      ((ofMacros .empty).compileSource source).outcome = .ok program ↔
        (rootOf tree).translation = .ok program.body := by
    rw [outcome_compileSource findsBuiltin hparse, translation_rootOf, map_eq_ok_iff]
    constructor
    · rintro ⟨body, hbody, rfl⟩
      exact hbody
    · intro hbody
      exact ⟨program.body, hbody, rfl⟩
  constructor
  · intro h
    obtain ⟨tree, hparse⟩ := exists_parse_of_compileSource h
    exact ⟨tree, hparse, (hsteps hparse).mp h⟩
  · rintro ⟨tree, hparse, h⟩
    exact (hsteps hparse).mpr h

example :
    (rootOf (.nest " a " (.nest "->  p  b" (.text "path .q r") (.text "")) (.text " "))).translation =
      .ok [.literal "a ", .within "p" [.literal "b", .location ".q"], .literal " "] := by rfl

theorem outcome_compileSource_firstFault {source : String} {tree : Group}
    (hparse : Group.parse source = .ok tree) :
    match firstFault tree.nested with
    | none => ∃ program, ((ofMacros .empty).compileSource source).outcome = .ok program
    | some n => ((ofMacros .empty).compileSource source).outcome =
        .error (.unknownMacro n.group.token) := by
  have hblames : tree.trimmed.content.Blames (firstFault tree.nested) := by
    rw [Group.content, Group.trimmed, Group.parts_setHead]
    exact (tree.blames_parts 0 (by simp)).map _
  rw [outcome_compileSource findsBuiltin hparse]
  cases hf : firstFault tree.nested with
  | none =>
    rw [hf] at hblames
    obtain ⟨body, hbody⟩ := hblames
    exact ⟨⟨body⟩, by rw [hbody]; rfl⟩
  | some n =>
    rw [hf] at hblames
    have hbody : tree.trimmed.content = .error (.unknownMacro n.group.token) := hblames
    rw [hbody]
    rfl

theorem exists_unmatchedBrace {compiler : Compiler} {source : String}
    (h : ¬ Text.Balanced source) :
    ∃ position, (compiler.compileSource source).outcome = .error (.unmatchedBrace position) := by
  cases hparse : Group.parse source with
  | error position => exact ⟨position, by simp [compileSource, hparse, Traced.fail]⟩
  | ok tree => exact absurd (Group.exists_parse_iff.mp ⟨tree, hparse⟩) h

section Readable
variable {source : String} {tree : Group}

theorem exists_outcome_ok_iff (hparse : Group.parse source = .ok tree) :
    (∃ program, ((ofMacros .empty).compileSource source).outcome = .ok program) ↔
      firstFault tree.nested = none := by
  have houtcome := outcome_compileSource_firstFault hparse
  cases hf : firstFault tree.nested with
  | none =>
    rw [hf] at houtcome
    exact ⟨fun _ => rfl, fun _ => houtcome⟩
  | some n =>
    simp only [hf] at houtcome
    simp [houtcome]

theorem outcome_eq_unknownMacro_iff (hparse : Group.parse source = .ok tree) (name : String) :
    ((ofMacros .empty).compileSource source).outcome = .error (.unknownMacro name) ↔
      ∃ n, firstFault tree.nested = some n ∧ n.group.token = name := by
  have houtcome := outcome_compileSource_firstFault hparse
  cases hf : firstFault tree.nested with
  | none =>
    rw [hf] at houtcome
    obtain ⟨program, hprogram⟩ := houtcome
    simp [hprogram]
  | some n =>
    simp only [hf] at houtcome
    simp [houtcome]

theorem exists_outcome_unknownMacro_iff (hparse : Group.parse source = .ok tree) :
    (∃ name, ((ofMacros .empty).compileSource source).outcome = .error (.unknownMacro name)) ↔
      ∃ n ∈ tree.nested, n.Live ∧ n.Unknown := by
  have hsome : (∃ n, firstFault tree.nested = some n) ↔ ∃ n ∈ tree.nested, n.Live ∧ n.Unknown := by
    simp [firstFault, ← Option.isSome_iff_exists]
  rw [← hsome]
  constructor
  · rintro ⟨name, h⟩
    obtain ⟨n, hn, -⟩ := (outcome_eq_unknownMacro_iff hparse name).mp h
    exact ⟨n, hn⟩
  · rintro ⟨n, hn⟩
    exact ⟨_, (outcome_eq_unknownMacro_iff hparse _).mpr ⟨n, hn, rfl⟩⟩

end Readable

/-- Unbalanced braces are refused. Otherwise the first group that is live and unknown is reported,
and without such a group the template compiles. -/
theorem compileSource_fails_iff (source : String) :
    (¬ Text.Balanced source → ∃ position,
      ((ofMacros .empty).compileSource source).outcome = .error (.unmatchedBrace position)) ∧
    (Text.Balanced source → ∃ tree, Group.parse source = .ok tree ∧
      (∀ n ∈ tree.nested, ∃ before after,
        source = before ++ n.group.source ++ after ∧ n.start = before.length) ∧
      ((∃ name, ((ofMacros .empty).compileSource source).outcome = .error (.unknownMacro name)) ↔
        ∃ n ∈ tree.nested, n.Live ∧ n.Unknown) ∧
      (∀ name, ((ofMacros .empty).compileSource source).outcome = .error (.unknownMacro name) ↔
        ∃ n : Nested, n.IsFirstFault tree.nested ∧ n.group.token = name) ∧
      ((∃ program, ((ofMacros .empty).compileSource source).outcome = .ok program) ↔
        ∀ n ∈ tree.nested, n.Live → ¬ n.Unknown)) := by
  refine ⟨exists_unmatchedBrace, fun hbalanced => ?_⟩
  obtain ⟨tree, hparse⟩ := Group.exists_parse_iff.mpr hbalanced
  refine ⟨tree, hparse, ?_, exists_outcome_unknownMacro_iff hparse, ?_, ?_⟩
  · intro n hn
    obtain ⟨before, after, hsource, hstart⟩ := Group.exists_source_of_mem_nestedFrom hn
    rw [(Group.parse_eq_ok_iff.mp hparse).2] at hsource
    exact ⟨before, after, hsource, by omega⟩
  · intro name
    have hstart : tree.nested.Pairwise fun m n => m.start < n.start :=
      tree.pairwise_start_nestedFrom 0 []
    simp only [outcome_eq_unknownMacro_iff hparse, firstFault_eq_some_iff hstart]
  · rw [exists_outcome_ok_iff hparse, firstFault_eq_none_iff]

/-- Three groups are live and unknown: `y`, then `z` in it, then one with a blank before its name. The
first is reported. The unknown group in front of them is not live, for it stands in a literal. -/
theorem compileSource_fails_iff_nested :
    ¬ Text.Balanced "a\x7d\x7bb" ∧
    (∃ position, ((ofMacros .empty).compileSource "a\x7d\x7bb").outcome =
      .error (.unmatchedBrace position)) ∧
    Text.Balanced "\x7bliteral \x7bx\x7d\x7d\x7bhas p \x7by \x7bz\x7d\x7d\x7d\x7b out\x7d" ∧
    ((ofMacros .empty).compileSource
      "\x7bliteral \x7bx\x7d\x7d\x7bhas p \x7by \x7bz\x7d\x7d\x7d\x7b out\x7d").outcome =
        .error (.unknownMacro "y") := by
  have hunbalanced : ¬ Text.Balanced "a\x7d\x7bb" := by
    intro h
    exact absurd (h.within ['a', '\x7d'] (by decide)) (by decide)
  have hparse : Group.parse "\x7bliteral \x7bx\x7d\x7d\x7bhas p \x7by \x7bz\x7d\x7d\x7d\x7b out\x7d" =
      .ok (.nest "" (.nest "literal " (.text "x") (.text ""))
        (.nest "" (.nest "has p " (.nest "y " (.text "z") (.text "")) (.text ""))
          (.nest "" (.text " out") (.text "")))) := by rfl
  have hbalanced := Group.exists_parse_iff.mp ⟨_, hparse⟩
  refine ⟨hunbalanced, (compileSource_fails_iff _).1 hunbalanced, hbalanced, ?_⟩
  obtain ⟨tree, htree, -, -, hfirst, -⟩ := (compileSource_fails_iff _).2 hbalanced
  cases hparse.symm.trans htree
  refine (hfirst "y").mpr ⟨⟨20, [.nest "has p " (.nest "y " (.text "z") (.text "")) (.text "")],
    .nest "y " (.text "z") (.text "")⟩, ⟨?_, ?_, ?_, ?_⟩, ?_⟩
  all_goals decide

end Compiler
end BraceTemplate
