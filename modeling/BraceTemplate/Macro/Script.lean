import BraceTemplate.Failure
import BraceTemplate.Log
import BraceTemplate.Program.Basic
import BraceTemplate.Tree.Basic

/-! # Scripts of macros

A macro is a script: a branching tree of the steps that it takes on the group it was invoked for. It may
look at the group, take the leading token off its head, have all or one of the nested groups compiled, or
have the group itself compiled under another head. It may also put another group in the place of its own,
and have any group at all compiled. The log and the group as the steps left it are kept also when the
script fails. No step catches a failure.
-/
namespace BraceTemplate

inductive Script (α : Type) where
  | done (result : α)
  | fail (failure : Failure)
  | look (next : Group → Script α)
  | takeToken (next : String → Script α)
  /-- Compiles what is left of the group as a plain concatenation. -/
  | compileChildren (next : Fragment → Script α)
  /-- Compiles the nested group at an index; one that is not there compiles to nothing. -/
  | compileGroup (index : Nat) (next : Fragment → Script α)
  /-- Compiles the group with a word put in front of its head. -/
  | compileAs (word : String) (next : Fragment → Script α)
  /-- Puts another group in the place of the macro's own. -/
  | replace (group : Group) (next : Script α)
  /-- Compiles any group. Of the macro's own group is left what `place` makes of what is left of it. -/
  | compileOther (other : Group) (place : Group → Group) (next : Group → Fragment → Script α)

namespace Script

def bind {α β : Type} : Script α → (α → Script β) → Script β
  | done a, f => f a
  | fail failure, _ => fail failure
  | look next, f => look fun group => (next group).bind f
  | takeToken next, f => takeToken fun token => (next token).bind f
  | compileChildren next, f => compileChildren fun fragment => (next fragment).bind f
  | compileGroup i next, f => compileGroup i fun fragment => (next fragment).bind f
  | compileAs word next, f => compileAs word fun fragment => (next fragment).bind f
  | replace group next, f => replace group (next.bind f)
  | compileOther other place next, f =>
    compileOther other place fun left fragment => (next left fragment).bind f

instance : Monad Script where
  pure := done
  bind := bind

def group : Script Group := look done

def token : Script String := takeToken done

/-- A text as a fragment; the empty text is no instruction. -/
def literals (text : String) : Fragment := if text = "" then [] else [.literal text]

def children : Script Fragment := compileChildren done

end Script

/-- What a visit to a group leaves: events, the group and an outcome. -/
structure Visit (α : Type) where
  events : List Event
  group : Group
  outcome : Outcome α

namespace Visit

def succeed {α : Type} (group : Group) (a : α) : Visit α := ⟨[], group, .ok a⟩

def fail {α : Type} (group : Group) (failure : Failure) : Visit α := ⟨[], group, .error failure⟩

def after {α : Type} (visit : Visit α) (events : List Event) : Visit α :=
  { visit with events := events ++ visit.events }

/-- Goes on after a visit to another group, which left `group` behind, unless that visit failed. -/
def andThen {α β : Type} (visit : Visit α) (group : Group) (next : α → Visit β) : Visit β :=
  match visit.outcome with
  | .ok a => (next a).after visit.events
  | .error failure => ⟨visit.events, group, .error failure⟩

@[simp] theorem outcome_after {α : Type} (visit : Visit α) (events : List Event) :
    (visit.after events).outcome = visit.outcome := rfl

@[simp] theorem group_after {α : Type} (visit : Visit α) (events : List Event) :
    (visit.after events).group = visit.group := rfl

end Visit

/-- Visits the nested groups in order, with `compile`, and puts what they compile to between the texts
of the group. The first failure ends the visit and leaves the groups behind it untouched. -/
def Group.visitChildren (compile : Group → Visit Fragment) : Group → Visit Fragment
  | .text head => .succeed (.text head) (Script.literals head)
  | .nest head inner rest =>
    let first := compile inner
    match first.outcome with
    | .error failure => ⟨first.events, .nest head first.group rest, .error failure⟩
    | .ok fragment =>
      let others := rest.visitChildren compile
      ⟨first.events ++ others.events, .nest head first.group others.group,
        others.outcome.map (Script.literals head ++ fragment ++ ·)⟩

namespace Script

/-- Runs a script on a group, with `compile` for the groups that it wants compiled. -/
def run {α : Type} (compile : Group → Visit Fragment) : Script α → Group → Visit α
  | done a, group => .succeed group a
  | fail failure, group => .fail group failure
  | look next, group => (next group).run compile group
  | takeToken next, group => (next group.token).run compile group.dropToken
  | compileChildren next, group =>
    let visit := group.visitChildren compile
    visit.andThen visit.group fun fragment => (next fragment).run compile visit.group
  | compileGroup i next, group =>
    match group.group? i with
    | none => (next []).run compile group
    | some inner =>
      let visit := compile inner
      let left := group.setGroup i visit.group
      visit.andThen left fun fragment => (next fragment).run compile left
  | compileAs word next, group =>
    let visit := compile (group.setHead (word ++ " " ++ group.head))
    let left := visit.group.setHead group.head
    visit.andThen left fun fragment => (next fragment).run compile left
  | replace group next, _ => next.run compile group
  | compileOther other place next, _ =>
    let visit := compile other
    let left := place visit.group
    visit.andThen left fun fragment => (next visit.group fragment).run compile left

end Script

inductive Item where
  | instruction (i : Instruction)
  | other (value : Value)

inductive Product where
  | nothing
  | text (content : String)
  | instruction (i : Instruction)
  | many (items : List Item)

namespace Product

def instructions : List Item → Outcome Fragment
  | [] => .ok []
  | .instruction i :: rest => (instructions rest).map (i :: ·)
  | .other value :: _ => .error (.notInstruction value)

def toFragment : Product → Outcome Fragment
  | nothing => .ok []
  | text content => .ok (Script.literals content)
  | instruction i => .ok [i]
  | many items => instructions items

def ofFragment (fragment : Fragment) : Product := many (fragment.map .instruction)

@[simp] theorem toFragment_ofFragment (fragment : Fragment) :
    (ofFragment fragment).toFragment = .ok fragment := by
  induction fragment with
  | nil => rfl
  | cons i rest ih =>
    simp only [ofFragment, toFragment, List.map_cons, instructions] at ih ⊢
    rw [ih]; rfl

end Product

abbrev Macro := Script Product

end BraceTemplate
