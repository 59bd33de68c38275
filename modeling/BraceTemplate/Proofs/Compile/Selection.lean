import BraceTemplate.Proofs.Compile.Outcome
import BraceTemplate.Proofs.Table.Layers

/-! # Which macro compiles a group

The name of a group selects a macro: that of the last layer that has the name, or else the built-in one.
This is so for every group that is compiled, the implicit one and those that macros make included. The
layers say all about a compiler in this way: two compilers that select alike compile every template alike,
however their tables came about.
-/
namespace BraceTemplate

theorem Builtin.find?_table_of_mem {name : String} {script : Macro} (h : (name, script) ∈ macros) :
    table.find? name = some (.usable label script) := by
  rw [find?_table]
  simp only [macros, List.mem_cons, Prod.mk.injEq, List.not_mem_nil, or_false] at h
  rcases h with ⟨rfl, rfl⟩ | ⟨rfl, rfl⟩ | ⟨rfl, rfl⟩ | ⟨rfl, rfl⟩ | ⟨rfl, rfl⟩ | ⟨rfl, rfl⟩ |
    ⟨rfl, rfl⟩ | ⟨rfl, rfl⟩ <;> rfl

namespace Compiler

/-- Whether the macro is run for every group of the name, however many macros are at work around it. -/
def RunsFor (compiler : Compiler) (name : String) (script : Macro) : Prop :=
  ∀ limit group, group.token = name →
    transformWithin compiler.macros (limit + 1) group =
      (invoke (transformWithin compiler.macros limit) script group.dropToken).after
        [.dispatching name]

/-- Whether every group of the name fails for want of a macro. -/
def Misses (compiler : Compiler) (name : String) : Prop :=
  ∀ limit group, group.token = name →
    transformWithin compiler.macros (limit + 1) group = .fail group.dropToken (.unknownMacro name)

/-- Whether a compiler goes by the last layer that has a name, then by the built-in macros. A whole
template goes by the name of the implicit group. -/
structure SelectsFrom (compiler : Compiler) (layers : List (Table Macro)) : Prop where
  template : ∀ source tree, Group.parse source = .ok tree → (rootOf tree).token = outputMacro ∧
    ∃ limit, (compiler.compileSource source).outcome =
      (transformWithin compiler.macros (limit + 1) (rootOf tree)).outcome.map Program.mk
  layer : ∀ name entry, Table.Frontmost layers name entry →
    ∃ label script, entry = .usable label script ∧ compiler.RunsFor name script
  builtin : ∀ name script, (∀ table ∈ layers, name ∉ table.names) →
    (name, script) ∈ Builtin.macros → compiler.RunsFor name script
  unknown : ∀ name, (∀ table ∈ layers, name ∉ table.names) → name ∉ Builtin.names →
    compiler.Misses name

section Steps
variable {compiler : Compiler} {name : String}

theorem runsFor_of_find? {label : String} {script : Macro}
    (h : compiler.macros.find? name = some (.usable label script)) : compiler.RunsFor name script := by
  rintro limit group rfl
  simp only [transformWithin, h]

theorem misses_of_find? (h : compiler.macros.find? name = none) : compiler.Misses name := by
  rintro limit group rfl
  simp only [transformWithin, h]

theorem exists_outcome_compileSource (compiler : Compiler) {source : String} {tree : Group}
    (hparse : Group.parse source = .ok tree) : ∃ limit, (compiler.compileSource source).outcome =
      (transformWithin compiler.macros (limit + 1) (rootOf tree)).outcome.map Program.mk := by
  obtain ⟨limit, hlimit⟩ : ∃ limit, compiler.limitFor (rootOf tree) = limit + 1 := by
    have hpos := (rootOf tree).height_pos
    exact ⟨compiler.limitFor (rootOf tree) - 1, by rw [limitFor]; omega⟩
  refine ⟨limit, ?_⟩
  simp only [compileSource, hparse, compileTree, transform, hlimit, Visit.andThen]
  cases (transformWithin compiler.macros (limit + 1) (rootOf tree)).outcome <;> rfl

theorem selectsFrom_ofMacros {macros : Table Macro} {layers : List (Table Macro)}
    (hmerges : macros.Merges layers) (husable : ∀ table ∈ layers, table.Usable) :
    (ofMacros macros).SelectsFrom layers := by
  have hfind (name : String) : (ofMacros macros).macros.find? name =
      (macros.find? name).or (Builtin.table.find? name) := Table.find?_layered _ _ _
  constructor
  · intro source tree hparse
    exact ⟨token_rootOf tree, exists_outcome_compileSource _ hparse⟩
  · intro name entry hentry
    obtain ⟨label, script, rfl⟩ := hentry.usable husable
    have hscript : (ofMacros macros).macros.find? name = some (.usable label script) := by
      rw [hfind, (hmerges.find?_eq name _).mpr hentry, Option.some_or]
    exact ⟨label, script, rfl, runsFor_of_find? hscript⟩
  · intro name script hlayers hscript
    have hbuiltin : (ofMacros macros).macros.find? name = Builtin.table.find? name := by
      rw [hfind, hmerges.find?_eq_none hlayers, Option.none_or]
    exact runsFor_of_find? (hbuiltin.trans (Builtin.find?_table_of_mem hscript))
  · intro name hlayers hname
    apply misses_of_find?
    rw [hfind, hmerges.find?_eq_none hlayers, Option.none_or, Builtin.find?_table_eq_none hname]

end Steps

section Runs
variable {compiler other : Compiler} {layers : List (Table Macro)}

theorem SelectsFrom.transformWithin_eq (h : compiler.SelectsFrom layers)
    (hother : other.SelectsFrom layers) (limit : Nat) :
    transformWithin compiler.macros limit = transformWithin other.macros limit := by
  induction limit with
  | zero => rfl
  | succ limit ih =>
    funext group
    have hruns {script : Macro} (hscript : compiler.RunsFor group.token script)
        (hscript' : other.RunsFor group.token script) :
        transformWithin compiler.macros (limit + 1) group =
          transformWithin other.macros (limit + 1) group := by
      rw [hscript limit group rfl, hscript' limit group rfl, ih]
    rcases Table.exists_frontmost_or layers group.token with ⟨entry, hentry⟩ | hlayers
    · obtain ⟨label, script, rfl, hscript⟩ := h.layer _ entry hentry
      obtain ⟨label', script', hsame, hscript'⟩ := hother.layer _ _ hentry
      cases hsame
      exact hruns hscript hscript'
    · by_cases hbuiltin : group.token ∈ Builtin.names
      · obtain ⟨⟨name, script⟩, hmem, hname⟩ := List.mem_map.mp hbuiltin
        have hscript : (group.token, script) ∈ Builtin.macros := hname ▸ hmem
        exact hruns (h.builtin _ script hlayers hscript) (hother.builtin _ script hlayers hscript)
      · rw [h.unknown _ hlayers hbuiltin limit group rfl, hother.unknown _ hlayers hbuiltin limit group rfl]

theorem SelectsFrom.compileValue_eq (h : compiler.SelectsFrom layers)
    (hother : other.SelectsFrom layers) (hreserve : compiler.reserve = other.reserve)
    (source : Value) : compiler.compileValue source = other.compileValue source := by
  have htree (tree : Group) : compiler.compileTree tree = other.compileTree tree := by
    have htransform : compiler.transform (rootOf tree) = other.transform (rootOf tree) := by
      rw [transform, transform, limitFor, limitFor, hreserve, h.transformWithin_eq hother]
    rw [compileTree, compileTree, htransform]
  cases source with
  | text source => simp only [compileValue, compileSource, htree]
  | _ => rfl

end Runs
end Compiler
end BraceTemplate
