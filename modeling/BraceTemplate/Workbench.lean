import BraceTemplate.Compiler

/-! # Working on a tree by hand

A workbench holds a compiler and a tree with a cursor on one of its groups. Commands take tokens off the
group, read it, write to it or compile it. Whatever a command strips from the groups of the tree stays
stripped, also when the command fails.
-/
namespace BraceTemplate

structure Workbench where
  compiler : Compiler
  tree : Group
  /-- The address of the group under the cursor. -/
  cursor : List Nat

inductive Command where
  | takeToken
  | readHead
  | append (text : String)
  | readInner
  | readSource
  | moveToGroup (index : Nat)
  | moveToRoot
  | compileChildren
  | transform
  | compileTree
  | compileOther (source : Value)

inductive Reply where
  | nothing
  | text (text : String)
  | fragment (fragment : Fragment)

namespace Workbench

def onRoot (compiler : Compiler) (tree : Group) : Workbench := ⟨compiler, tree, []⟩

def group (bench : Workbench) : Group := (bench.tree.at? bench.cursor).getD bench.tree

def setGroup (bench : Workbench) (group : Group) : Workbench :=
  { bench with tree := bench.tree.setAt bench.cursor group }

/-- Puts the group that a visit left in its place. -/
def keep {α : Type} (bench : Workbench) (reply : α → Reply) (visit : Visit α) :
    Workbench × Outcome Reply :=
  (bench.setGroup visit.group, visit.outcome.map reply)

def perform (bench : Workbench) : Command → Workbench × Outcome Reply
  | .takeToken => (bench.setGroup bench.group.dropToken, .ok (.text bench.group.token))
  | .readHead => (bench, .ok (.text bench.group.head))
  | .append text => (bench.setGroup (bench.group.append text), .ok .nothing)
  | .readInner => (bench, .ok (.text bench.group.innerSource))
  | .readSource => (bench, .ok (.text bench.group.source))
  | .moveToGroup index =>
    if index < bench.group.groups.length then
      ({ bench with cursor := bench.cursor ++ [index] }, .ok .nothing)
    else (bench, .error .noSuchGroup)
  | .moveToRoot => ({ bench with cursor := [] }, .ok .nothing)
  | .compileChildren => bench.keep .fragment (bench.compiler.children bench.group)
  | .transform => bench.keep .fragment (bench.compiler.transform bench.group)
  | .compileTree =>
    bench.keep (fun program => .fragment program.body) (bench.compiler.compileTree bench.group)
  | .compileOther source =>
    (bench, (bench.compiler.compileValue source).outcome.map fun program =>
      .fragment program.body)

end Workbench
end BraceTemplate
