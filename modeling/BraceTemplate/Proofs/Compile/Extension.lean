import BraceTemplate.Compiler

/-! # More macros in the table

A macro reaches the table of macros only by having groups compiled, and what fails in there fails the
macro. So a table with more names compiles a template as the smaller table does, unless the smaller one
fails for one of the names it lacks. The two compilations are run side by side: they take the same steps,
on groups that are stripped alike, until one of these names is looked up.
-/
namespace BraceTemplate

namespace Table
variable {α : Type}

/-- Whether `extended` binds the names of `front` as `front` does, and else only names that `back` does
not bind. -/
structure ExtendsOver (back front extended : Table α) : Prop where
  keeps : ∀ name entry, front.find? name = some entry → extended.find? name = some entry
  fresh : ∀ name, front.find? name = none → extended.find? name ≠ none → back.find? name = none

def Adds (front extended : Table α) (name : String) : Prop :=
  front.find? name = none ∧ extended.find? name ≠ none

variable {back front extended : Table α}

theorem extendsOver_insert {name : String} (hfront : front.find? name = none)
    (hback : back.find? name = none) (entry : Entry α) :
    ExtendsOver back front (front.insert name entry) := by
  constructor
  · intro key found hfound
    have hne : name ≠ key := by
      rintro rfl
      rw [hfront] at hfound
      cases hfound
    rw [find?_insert, if_neg hne, hfound]
  · intro key hkey hadded
    by_cases hname : name = key
    · exact hname ▸ hback
    · rw [find?_insert, if_neg hname] at hadded
      exact absurd hkey hadded

theorem ExtendsOver.find?_layered (h : ExtendsOver back front extended) (name : String) :
    Adds front extended name ∧ (layered front back).find? name = none ∨
      (layered extended back).find? name = (layered front back).find? name := by
  rw [Table.find?_layered, Table.find?_layered]
  cases hfront : front.find? name with
  | some entry =>
    right
    rw [h.keeps name entry hfront]
  | none =>
    by_cases hextended : extended.find? name = none
    · right
      rw [hextended]
    · left
      rw [Option.none_or]
      exact ⟨⟨hfront, hextended⟩, h.fresh name hfront hextended⟩

end Table

namespace Visit
variable {α β : Type} {bad : Failure → Prop}

/-- Whether the visit ends in one of the failures, or the other visit is the same. -/
def AlikeUnless (bad : Failure → Prop) (visit other : Visit α) : Prop :=
  (∃ failure, bad failure ∧ visit.outcome = .error failure) ∨ other = visit

theorem AlikeUnless.refl (visit : Visit α) : AlikeUnless bad visit visit := .inr rfl

theorem AlikeUnless.after {visit other : Visit α} (h : AlikeUnless bad visit other)
    (events : List Event) : AlikeUnless bad (visit.after events) (other.after events) := by
  rcases h with ⟨failure, hbad, houtcome⟩ | rfl
  · exact .inl ⟨failure, hbad, houtcome⟩
  · exact .refl _

/-- What goes on behind two visits starts from the same group with the same result, or not at all. -/
theorem AlikeUnless.andThen {visit other : Visit α} (h : AlikeUnless bad visit other)
    (place : Group → Group) {next next' : Group → α → Visit β}
    (hnext : ∀ left a, AlikeUnless bad (next left a) (next' left a)) :
    AlikeUnless bad (visit.andThen (place visit.group) (next visit.group))
      (other.andThen (place other.group) (next' other.group)) := by
  rcases h with ⟨failure, hbad, houtcome⟩ | rfl
  · left
    refine ⟨failure, hbad, ?_⟩
    rw [Visit.andThen, houtcome]
  · rw [Visit.andThen, Visit.andThen]
    cases other.outcome with
    | error failure => exact .refl _
    | ok a => exact (hnext other.group a).after other.events

end Visit

section Lockstep
variable {bad : Failure → Prop} {compile compile' : Group → Visit Fragment}
variable (hcompile : ∀ group, Visit.AlikeUnless bad (compile group) (compile' group))
include hcompile

theorem Group.alikeUnless_visitChildren (group : Group) :
    Visit.AlikeUnless bad (group.visitChildren compile) (group.visitChildren compile') := by
  induction group with
  | text head => exact .refl _
  | nest head inner rest _ ih =>
    rw [visitChildren, visitChildren]
    rcases hcompile inner with ⟨failure, hbad, houtcome⟩ | hsame
    · left
      refine ⟨failure, hbad, ?_⟩
      simp only [houtcome]
    · rw [hsame]
      cases (compile inner).outcome with
      | error failure => exact .refl _
      | ok fragment =>
        rcases ih with ⟨failure, hbad, houtcome⟩ | hrest
        · left
          refine ⟨failure, hbad, ?_⟩
          simp only [houtcome, Except.map]
        · rw [hrest]
          exact .refl _

theorem Script.alikeUnless_run {α : Type} (script : Script α) (group : Group) :
    Visit.AlikeUnless bad (script.run compile group) (script.run compile' group) := by
  induction script generalizing group with
  | done a => exact .refl _
  | fail failure => exact .refl _
  | look next ih => exact ih group group
  | takeToken next ih => exact ih group.token group.dropToken
  | replace new next ih => exact ih new
  | compileChildren next ih =>
    exact (group.alikeUnless_visitChildren hcompile).andThen id fun left a => ih a left
  | compileGroup i next ih =>
    rw [run, run]
    cases group.group? i with
    | none => exact ih [] group
    | some inner =>
      exact (hcompile inner).andThen (group.setGroup i ·) fun left a => ih a (group.setGroup i left)
  | compileAs word next ih =>
    exact (hcompile _).andThen (·.setHead group.head) fun left a => ih a (left.setHead group.head)
  | compileOther other place next ih =>
    exact (hcompile other).andThen place fun left a => ih left a (place left)

theorem Compiler.alikeUnless_invoke (script : Macro) (group : Group) :
    Visit.AlikeUnless bad (invoke compile script group) (invoke compile' script group) := by
  rw [invoke, invoke]
  rcases script.alikeUnless_run hcompile group with ⟨failure, hbad, houtcome⟩ | hsame
  · left
    refine ⟨failure, hbad, ?_⟩
    simp only [houtcome, Except.bind]
  · rw [hsame]
    exact .refl _

end Lockstep

namespace Compiler
variable {registry : Registry} {front extended : Table Macro}

/-- The failure of a look-up for a name that the extended table adds. -/
def LacksAdded (front extended : Table Macro) (failure : Failure) : Prop :=
  ∃ name, Table.Adds front extended name ∧ failure = .unknownMacro name

theorem alikeUnless_transformWithin (h : Table.ExtendsOver registry.macros front extended)
    (limit : Nat) (group : Group) :
    Visit.AlikeUnless (LacksAdded front extended)
      (transformWithin (registry.layered front) limit group)
      (transformWithin (registry.layered extended) limit group) := by
  induction limit generalizing group with
  | zero => exact .refl _
  | succ limit ih =>
    rw [transformWithin, transformWithin]
    rcases h.find?_layered group.token with ⟨hadds, hnone⟩ | hsame
    · left
      refine ⟨.unknownMacro group.token, ⟨group.token, hadds, rfl⟩, ?_⟩
      rw [Registry.layered, hnone]
      rfl
    · rw [Registry.layered, Registry.layered, hsame]
      split
      · exact .refl _
      · exact .refl _
      · exact .refl _
      · exact (alikeUnless_invoke ih _ _).after _

theorem alikeUnless_compileTree (h : Table.ExtendsOver registry.macros front extended)
    (reserve : Nat) (tree : Group) :
    Visit.AlikeUnless (LacksAdded front extended)
      (compileTree ⟨registry.layered front, reserve⟩ tree)
      (compileTree ⟨registry.layered extended, reserve⟩ tree) := by
  have htransform := alikeUnless_transformWithin h (limitFor ⟨registry.layered front, reserve⟩
    (rootOf tree)) (rootOf tree)
  have hprogram (left : Group) (body : Fragment) : Visit.AlikeUnless (LacksAdded front extended)
      ⟨[.compiled (Program.walk ⟨body⟩).length], left.setHead tree.head, .ok (Program.mk body)⟩
      ⟨[.compiled (Program.walk ⟨body⟩).length], left.setHead tree.head, .ok (Program.mk body)⟩ :=
    .refl _
  exact htransform.andThen (·.setHead tree.head) hprogram

/-- Macros under new names change nothing, unless one of these names is missed without them. This holds
however many macros the compiler allows to be at work at once. -/
theorem compileSource_extended (h : Table.ExtendsOver registry.macros front extended)
    (reserve : Nat) (source : String)
    (hadded : ∀ name, Table.Adds front extended name →
      (compileSource ⟨registry.layered front, reserve⟩ source).outcome ≠
        .error (.unknownMacro name)) :
    compileSource ⟨registry.layered extended, reserve⟩ source =
      compileSource ⟨registry.layered front, reserve⟩ source := by
  rw [compileSource, compileSource]
  cases hparse : Group.parse source with
  | error position => rfl
  | ok tree =>
    rcases alikeUnless_compileTree h reserve tree with ⟨_, ⟨name, hadds, rfl⟩, houtcome⟩ | hsame
    · have hmissed := hadded name hadds
      rw [compileSource, hparse] at hmissed
      exact absurd houtcome hmissed
    · simp only [hsame]

/-- A macro that compiles its children twice, the second time as the first has left them. -/
def twiceTable : Table Macro :=
  .ofEntries [("twice", .usable "twice" do
    let first ← Script.children
    let second ← Script.children
    return .ofFragment (first ++ second))]

/-- The nested group is compiled twice, under two names. The added name stands in the template, but is
never looked up. -/
theorem compileSource_extended_twice :
    Table.ExtendsOver Registry.builtin.macros twiceTable
      (twiceTable.insert "x" (.usable "x" Builtin.inPlace)) ∧
    (∀ name, Table.Adds twiceTable (twiceTable.insert "x" (.usable "x" Builtin.inPlace)) name →
      (compileSource ⟨Registry.builtin.layered twiceTable, 2⟩
        "\x7btwice \x7bout . x\x7d\x7d").outcome ≠ .error (.unknownMacro name)) ∧
    (compileSource ⟨Registry.builtin.layered (twiceTable.insert "x" (.usable "x" Builtin.inPlace)), 2⟩
      "\x7btwice \x7bout . x\x7d\x7d").outcome = .ok ⟨[.literal ". x", .value "x"]⟩ := by
  have hextends : Table.ExtendsOver Registry.builtin.macros twiceTable
      (twiceTable.insert "x" (.usable "x" Builtin.inPlace)) :=
    Table.extendsOver_insert (by rfl) (by rfl) _
  have hprogram : (compileSource ⟨Registry.builtin.layered twiceTable, 2⟩
      "\x7btwice \x7bout . x\x7d\x7d").outcome = .ok ⟨[.literal ". x", .value "x"]⟩ := by rfl
  have hadded (name : String)
      (_ : Table.Adds twiceTable (twiceTable.insert "x" (.usable "x" Builtin.inPlace)) name) :
      (compileSource ⟨Registry.builtin.layered twiceTable, 2⟩
        "\x7btwice \x7bout . x\x7d\x7d").outcome ≠ .error (.unknownMacro name) := by
    rw [hprogram]
    simp
  refine ⟨hextends, hadded, ?_⟩
  rw [compileSource_extended hextends 2 _ hadded]
  exact hprogram

end Compiler

end BraceTemplate
