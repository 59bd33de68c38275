import BraceTemplate.Macro.Registry
import BraceTemplate.Program.Walk
import BraceTemplate.Traced
import BraceTemplate.Tree.Parser

/-! # The compiler

A group is compiled by the macro that the leading token of its head names. The token is stripped from
the group before the macro is looked up, so the group shows it also when there is no such macro. A
template is compiled as the argument of an implicit `out` group, which drops blanks at its start.

Macros may have a group compiled again under another name, and so for ever. The compiler therefore
limits how many macros are at work at once: as many as groups are nested, and a reserve.
-/
namespace BraceTemplate

structure Compiler where
  macros : Table Macro
  reserve : Nat

namespace Compiler

def defaultReserve : Nat := 1000

/-- The macros of the user stand in front of those of the registry. -/
def ofRegistry (registry : Registry) (overrides : Table Macro) : Compiler :=
  ⟨registry.layered overrides, defaultReserve⟩

def ofMacros (overrides : Table Macro) : Compiler := ofRegistry .builtin overrides

/-- Runs a macro for a group whose token is stripped. -/
def invoke (compile : Group → Visit Fragment) (script : Macro) (group : Group) :
    Visit Fragment :=
  let visit := script.run compile group
  { visit with outcome := visit.outcome.bind Product.toFragment }

/-- Compiles a group with at most `limit` macros at work at once. -/
def transformWithin (macros : Table Macro) : (limit : Nat) → Group → Visit Fragment
  | 0, group => .fail group .tooDeep
  | limit + 1, group =>
    let name := group.token
    let stripped := group.dropToken
    match macros.find? name with
    | none => .fail stripped (.unknownMacro name)
    | some .empty => .fail stripped (.unknownMacro name)
    | some (.inert _) => (Visit.fail stripped .notCallable).after [.dispatching name]
    | some (.usable _ script) =>
      (invoke (transformWithin macros limit) script stripped).after [.dispatching name]

def limitFor (compiler : Compiler) (group : Group) : Nat := group.height + compiler.reserve

def transform (compiler : Compiler) (group : Group) : Visit Fragment :=
  transformWithin compiler.macros (compiler.limitFor group) group

/-- Compiles what is left of a group as a plain concatenation. -/
def children (compiler : Compiler) (group : Group) : Visit Fragment :=
  Script.children.run (transformWithin compiler.macros (compiler.limitFor group)) group

def outputMacro : String := "out"

def rootOf (tree : Group) : Group := tree.setHead (outputMacro ++ " " ++ tree.head)

/-- Compiles a whole tree. Its own head stays as it is, its nested groups are stripped. -/
def compileTree (compiler : Compiler) (tree : Group) : Visit Program :=
  let visit := compiler.transform (rootOf tree)
  visit.andThen (visit.group.setHead tree.head) fun body =>
    let program : Program := ⟨body⟩
    ⟨[.compiled program.walk.length], visit.group.setHead tree.head, .ok program⟩

def compileSource (compiler : Compiler) (source : String) : Traced Program :=
  match Group.parse source with
  | .error position => .fail (.unmatchedBrace position)
  | .ok tree =>
    let visit := compiler.compileTree tree
    ⟨visit.events, visit.outcome⟩

def compileValue (compiler : Compiler) : Value → Traced Program
  | .text source => compiler.compileSource source
  | _ => .fail .notText

end Compiler
end BraceTemplate
