import BraceTemplate.Proofs.Compile.Translation
import BraceTemplate.Proofs.Tree.Shortened
import BraceTemplate.Workbench

/-! # What compiling leaves of a tree

Compiling uses a tree up: the macros take tokens off the heads of its groups, also before one of them
fails. A macro that reads its group, takes tokens off it and has groups compiled does no more than that,
in whatever order and however often it does so, and under whatever names. So all that is done to a tree
on a workbench shortens heads, and the tree keeps its form.
-/
namespace BraceTemplate

namespace Script
variable {α β : Type}

/-- Takes the token off the nested group at an address; a group that is not there has none. -/
def takeTokenAt (address : List Nat) (next : String → Script α) : Script α :=
  look fun group =>
    match group.at? address with
    | none => next ""
    | some inner => replace (group.setAt address inner.dropToken) (next inner.token)

/-- Compiles the nested group at an address; one that is not there compiles to nothing. -/
def compileAt (address : List Nat) (next : Fragment → Script α) : Script α :=
  look fun group =>
    match group.at? address with
    | none => next []
    | some inner => compileOther inner (group.setAt address) fun _ => next

/-- Compiles a new group with another head and the nested groups of the macro's own. -/
def compileRenamed (rename : String → String) (next : Fragment → Script α) : Script α :=
  look fun group =>
    compileOther (group.setHead (rename group.head)) (·.setHead group.head) fun _ => next

theorem bind_takeTokenAt (address : List Nat) (next : String → Script α) (f : α → Script β) :
    (takeTokenAt address next).bind f = takeTokenAt address fun token => (next token).bind f := by
  rw [takeTokenAt, bind, takeTokenAt]
  congr 1
  funext group
  cases group.at? address <;> rfl

theorem bind_compileAt (address : List Nat) (next : Fragment → Script α) (f : α → Script β) :
    (compileAt address next).bind f = compileAt address fun fragment => (next fragment).bind f := by
  rw [compileAt, bind, compileAt]
  congr 1
  funext group
  cases group.at? address <;> rfl

/-- Whether the script does nothing to its group but take tokens off heads in it and have it, or groups
nested in it, compiled. -/
inductive StripsOnly : Script α → Prop where
  | done (result : α) : StripsOnly (.done result)
  | fail (failure : Failure) : StripsOnly (.fail failure)
  | look {next : Group → Script α} : (∀ group, StripsOnly (next group)) → StripsOnly (.look next)
  | takeToken {next : String → Script α} :
    (∀ token, StripsOnly (next token)) → StripsOnly (.takeToken next)
  | takeTokenAt {address : List Nat} {next : String → Script α} :
    (∀ token, StripsOnly (next token)) → StripsOnly (takeTokenAt address next)
  | compileChildren {next : Fragment → Script α} :
    (∀ fragment, StripsOnly (next fragment)) → StripsOnly (.compileChildren next)
  | compileGroup {index : Nat} {next : Fragment → Script α} :
    (∀ fragment, StripsOnly (next fragment)) → StripsOnly (.compileGroup index next)
  | compileAt {address : List Nat} {next : Fragment → Script α} :
    (∀ fragment, StripsOnly (next fragment)) → StripsOnly (compileAt address next)
  | compileAs {word : String} {next : Fragment → Script α} :
    (∀ fragment, StripsOnly (next fragment)) → StripsOnly (.compileAs word next)
  | compileRenamed {rename : String → String} {next : Fragment → Script α} :
    (∀ fragment, StripsOnly (next fragment)) → StripsOnly (compileRenamed rename next)

theorem StripsOnly.bind {script : Script α} (h : script.StripsOnly) {f : α → Script β}
    (hf : ∀ a, (f a).StripsOnly) : (script.bind f).StripsOnly := by
  induction h with
  | done a => exact hf a
  | fail failure => exact .fail failure
  | look _ ih => exact .look ih
  | takeToken _ ih => exact .takeToken ih
  | takeTokenAt _ ih =>
    rw [bind_takeTokenAt]
    exact .takeTokenAt ih
  | compileChildren _ ih => exact .compileChildren ih
  | compileGroup _ ih => exact .compileGroup ih
  | compileAt _ ih =>
    rw [bind_compileAt]
    exact .compileAt ih
  | compileAs _ ih => exact .compileAs ih
  | compileRenamed _ ih => exact .compileRenamed ih

end Script

theorem Visit.shortens_andThen {α β : Type} {group left : Group} (h : group.Shortens left)
    (visit : Visit α) {next : α → Visit β} (hnext : ∀ a, left.Shortens (next a).group) :
    group.Shortens (visit.andThen left next).group := by
  rw [Visit.andThen]
  cases visit.outcome with
  | error failure => exact h
  | ok a => exact h.trans (hnext a)

section Runs
variable {compile : Group → Visit Fragment}
variable (hcompile : ∀ group : Group, group.Shortens (compile group).group)

theorem Group.head_visitChildren (group : Group) :
    (group.visitChildren compile).group.head = group.head := by
  cases group with
  | text head => rfl
  | nest head inner rest =>
    rw [visitChildren]
    cases (compile inner).outcome <;> rfl

include hcompile

theorem Group.shortens_visitChildren (group : Group) :
    group.Shortens (group.visitChildren compile).group := by
  induction group with
  | text head => exact .refl _
  | nest head inner rest _ ih =>
    rw [visitChildren]
    cases (compile inner).outcome with
    | error failure => exact .nest List.suffix_rfl (hcompile inner) (.refl rest) rfl
    | ok fragment =>
      exact .nest List.suffix_rfl (hcompile inner) ih (head_visitChildren rest)

theorem Script.StripsOnly.shortens_run {α : Type} {script : Script α} (h : script.StripsOnly)
    (group : Group) : group.Shortens (script.run compile group).group := by
  induction h generalizing group with
  | done a => exact .refl group
  | fail failure => exact .refl group
  | look _ ih => exact ih group group
  | takeToken _ ih => exact group.shortens_dropToken.trans (ih _ _)
  | takeTokenAt _ ih =>
    rw [Script.takeTokenAt, run]
    cases haddress : group.at? _ with
    | none => exact ih "" group
    | some inner =>
      have hset : group.Shortens _ := .setAt_of_eq_some haddress inner.shortens_dropToken
      exact hset.trans (ih inner.token _)
  | compileChildren _ ih =>
    exact Visit.shortens_andThen (group.shortens_visitChildren hcompile) _ fun fragment =>
      ih fragment _
  | @compileGroup index next _ ih =>
    rw [run]
    cases hindex : group.group? index with
    | none => exact ih [] group
    | some inner =>
      have hset : group.Shortens _ := .setGroup hindex (hcompile inner)
      exact Visit.shortens_andThen hset _ fun fragment => ih fragment _
  | @compileAt address next _ ih =>
    rw [Script.compileAt, run]
    cases haddress : group.at? address with
    | none => exact ih [] group
    | some inner =>
      have hset : group.Shortens _ := .setAt_of_eq_some haddress (hcompile inner)
      exact Visit.shortens_andThen hset _ fun fragment => ih fragment _
  | compileAs _ ih =>
    exact Visit.shortens_andThen (hcompile _).setHead_head _ fun fragment => ih fragment _
  | compileRenamed _ ih =>
    exact Visit.shortens_andThen (hcompile _).setHead_head _ fun fragment => ih fragment _

end Runs

/-- Whether the macros in the table do nothing to their groups but strip them. -/
def Table.StripOnly (macros : Table Macro) : Prop :=
  ∀ name label script, macros.find? name = some (.usable label script) → script.StripsOnly

namespace Table

theorem StripOnly.layered {front back : Table Macro} (hfront : front.StripOnly)
    (hback : back.StripOnly) : (Table.layered front back).StripOnly := by
  intro name label script h
  rw [find?_layered] at h
  rcases Option.or_eq_some_iff.mp h with h | ⟨-, h⟩
  · exact hfront name label script h
  · exact hback name label script h

theorem stripOnly_ofEntries {entries : List (String × Entry Macro)}
    (h : ∀ name label script, (name, .usable label script) ∈ entries → script.StripsOnly) :
    (Table.ofEntries entries).StripOnly := by
  intro name label script hfind
  rw [find?_ofEntries] at hfind
  obtain ⟨front, rest, hentries, -⟩ := List.lookup_eq_some_iff.mp hfind
  refine h name label script (List.mem_reverse.mp ?_)
  rw [hentries]
  simp

end Table

namespace Builtin
open Script

theorem stripsOnly_leaf (make : String → Instruction) : (leaf make).StripsOnly :=
  .takeToken fun _ => .done _

theorem stripsOnly_block (make : String → Fragment → Instruction) : (block make).StripsOnly :=
  .takeToken fun _ => .compileChildren fun _ => .done _

theorem stripsOnly_inPlace : inPlace.StripsOnly := .compileChildren fun _ => .done _

theorem stripsOnly_verbatim : verbatim.StripsOnly := .look fun _ => .done _

theorem stripOnly_table : table.StripOnly := by
  refine Table.stripOnly_ofEntries fun name label script h => ?_
  obtain ⟨⟨name', script'⟩, hmem, heq⟩ := List.mem_map.mp h
  cases heq
  simp only [macros, List.mem_cons, Prod.mk.injEq, List.not_mem_nil, or_false] at hmem
  rcases hmem with ⟨-, rfl⟩ | ⟨-, rfl⟩ | ⟨-, rfl⟩ | ⟨-, rfl⟩ | ⟨-, rfl⟩ | ⟨-, rfl⟩ | ⟨-, rfl⟩ | ⟨-, rfl⟩
  · exact stripsOnly_leaf _
  · exact stripsOnly_block _
  · exact stripsOnly_block _
  · exact stripsOnly_block _
  · exact stripsOnly_leaf _
  · exact stripsOnly_inPlace
  · exact stripsOnly_verbatim
  · exact stripsOnly_leaf _

end Builtin

namespace Compiler

theorem shortens_transformWithin {macros : Table Macro} (h : macros.StripOnly) (limit : Nat)
    (group : Group) : group.Shortens (transformWithin macros limit group).group := by
  induction limit generalizing group with
  | zero => exact .refl group
  | succ limit ih =>
    rw [transformWithin]
    cases hfind : macros.find? group.token with
    | none => exact group.shortens_dropToken
    | some entry =>
      cases entry with
      | empty => exact group.shortens_dropToken
      | inert label => exact group.shortens_dropToken
      | usable label script =>
        have hscript := h _ _ _ hfind
        exact group.shortens_dropToken.trans (hscript.shortens_run ih group.dropToken)

variable {compiler : Compiler} (h : compiler.macros.StripOnly)
include h

theorem shortens_transform (group : Group) : group.Shortens (compiler.transform group).group :=
  shortens_transformWithin h _ group

theorem shortens_children (group : Group) : group.Shortens (compiler.children group).group :=
  (Script.StripsOnly.compileChildren fun _ => .done _).shortens_run
    (shortens_transformWithin h _) group

theorem shortens_compileTree (tree : Group) : tree.Shortens (compiler.compileTree tree).group := by
  have hroot := shortens_transform h (rootOf tree)
  exact Visit.shortens_andThen hroot.setHead_head _ fun _ => .refl _

end Compiler

namespace Workbench

/-- The workbench after some commands, of which each may have failed. -/
def after (bench : Workbench) (commands : List Command) : Workbench :=
  commands.foldl (fun bench command => (bench.perform command).1) bench

theorem compiler_perform (bench : Workbench) (command : Command) :
    (bench.perform command).1.compiler = bench.compiler := by
  cases command with
  | moveToGroup index =>
    rw [perform]
    split <;> rfl
  | _ => rfl

theorem compiler_after (bench : Workbench) (commands : List Command) :
    (bench.after commands).compiler = bench.compiler := by
  induction commands generalizing bench with
  | nil => rfl
  | cons command commands ih => exact (ih _).trans (compiler_perform bench command)

theorem shortens_setGroup {bench : Workbench} {group : Group} (h : bench.group.Shortens group) :
    bench.tree.Shortens (bench.setGroup group).tree := by
  refine .setAt fun inner hinner => ?_
  have hgroup : bench.group = inner := by rw [Workbench.group, hinner, Option.getD_some]
  exact hgroup ▸ h

theorem shortens_perform {bench : Workbench} (h : bench.compiler.macros.StripOnly)
    {command : Command} (hcommand : ∀ text, command ≠ .append text) :
    bench.tree.Shortens (bench.perform command).1.tree := by
  cases command with
  | takeToken => exact shortens_setGroup bench.group.shortens_dropToken
  | append text => exact absurd rfl (hcommand text)
  | compileChildren => exact shortens_setGroup (Compiler.shortens_children h bench.group)
  | transform => exact shortens_setGroup (Compiler.shortens_transform h bench.group)
  | compileTree => exact shortens_setGroup (Compiler.shortens_compileTree h bench.group)
  | moveToGroup index =>
    rw [perform]
    split <;> exact .refl _
  | _ => exact .refl _

theorem shortens_after {bench : Workbench} (h : bench.compiler.macros.StripOnly)
    {commands : List Command} (hcommands : ∀ command ∈ commands, ∀ text, command ≠ .append text) :
    bench.tree.Shortens (bench.after commands).tree := by
  induction commands generalizing bench with
  | nil => exact .refl _
  | cons command commands ih =>
    have hfirst := shortens_perform h (hcommands command List.mem_cons_self)
    refine hfirst.trans (ih ?_ fun c hc => hcommands c (List.mem_cons_of_mem _ hc))
    rw [compiler_perform]
    exact h

/-- If the macros of the user only strip, in front of the built-in ones, every group of the tree is at its
address after any commands, also after those that failed. They have taken no more from it than the front
of its head, and neither does the next command. -/
theorem perform_headShortened {overrides : Table Macro} (hoverrides : overrides.StripOnly)
    (reserve : Nat) (tree : Group) {commands : List Command}
    (hcommands : ∀ command ∈ commands, ∀ text, command ≠ .append text) {command : Command}
    (hcommand : ∀ text, command ≠ .append text) (address : List Nat) {group : Group}
    (hgroup : tree.at? address = some group) :
    let bench := (onRoot ⟨Registry.builtin.layered overrides, reserve⟩ tree).after commands
    ∃ now later, bench.tree.at? address = some now ∧
      (bench.perform command).1.tree.at? address = some later ∧
      group.HeadShortened now ∧ now.HeadShortened later := by
  have hmacros : (Registry.builtin.layered overrides).StripOnly :=
    hoverrides.layered Builtin.stripOnly_table
  have hstart : (onRoot ⟨Registry.builtin.layered overrides, reserve⟩ tree).compiler.macros.StripOnly :=
    hmacros
  obtain ⟨now, hnow, hshortens⟩ := (shortens_after hstart hcommands).exists_at? hgroup
  have hbench := shortens_perform (compiler_after _ commands ▸ hstart) hcommand
  obtain ⟨later, hlater, hshortens'⟩ := hbench.exists_at? hnow
  exact ⟨now, later, hnow, hlater, hshortens.headShortened, hshortens'.headShortened⟩

/-- A macro that has its second group compiled first, then all of its groups in a loop, and goes on as a
built-in macro. -/
def crossTable : Table Macro :=
  .ofEntries [("cross", .usable "cross" do
    let _ ← Script.compileGroup 1 .done
    let _ ← Script.compileAs "each" .done
    Builtin.inPlace)]

def crossTree : Group :=
  .nest "" (.nest "cross " (.text ". x") (.nest " " (.text "-> y z") (.text ""))) (.text "!")

/-- Takes the token off the first group in the macro's group. -/
def crossCommands : List Command := [.moveToGroup 0, .moveToGroup 0, .takeToken, .moveToRoot]

/-- The name of the first group in the macro's group is gone when the tree is compiled. The second group
is stripped before the macro fails for the first. -/
theorem perform_headShortened_cross :
    crossTable.StripOnly ∧
    (∀ command ∈ crossCommands, ∀ text, command ≠ .append text) ∧
    (∀ text : String, Command.compileTree ≠ .append text) ∧
    crossTree.at? [0, 1] = some (.text "-> y z") ∧
    let bench := (onRoot ⟨Registry.builtin.layered crossTable, 5⟩ crossTree).after crossCommands
    (bench.perform .compileTree).2 = .error (.unknownMacro "x") ∧
    (bench.perform .compileTree).1.tree =
      .nest "" (.nest "" (.text "") (.nest " " (.text "z") (.text ""))) (.text "!") ∧
    Group.HeadShortened (.text "-> y z") (.text "z") := by
  have htable : crossTable.StripOnly := by
    refine Table.stripOnly_ofEntries fun name label script h => ?_
    cases List.mem_singleton.mp h
    refine .bind (.compileGroup fun _ => .done _) fun _ => ?_
    exact .bind (.compileAs fun _ => .done _) fun _ => Builtin.stripsOnly_inPlace
  have hcommands : ∀ command ∈ crossCommands, ∀ text, command ≠ .append text := by
    simp [crossCommands]
  have hcommand : ∀ text : String, Command.compileTree ≠ .append text := by simp
  have hgroup : crossTree.at? [0, 1] = some (.text "-> y z") := rfl
  obtain ⟨now, later, hnow, hlater, -, hshortened⟩ :=
    perform_headShortened htable 5 crossTree hcommands hcommand [0, 1] hgroup
  obtain rfl : .text "-> y z" = now := Option.some.inj hnow
  obtain rfl : .text "z" = later := Option.some.inj hlater
  exact ⟨htable, hcommands, hcommand, hgroup, rfl, rfl, hshortened⟩

end Workbench

end BraceTemplate
