import BraceTemplate.Proofs.Compile.Outcome
import BraceTemplate.Proofs.Program.Listing
import Mathlib.Data.List.TakeWhile

/-! # The log of a compilation

Every macro that is found is logged before it is run, and a macro runs through the groups that it wants
compiled in the order of the template. So the log names the live groups one after the other, as their
braces open, up to the first that names no macro. What is nested in a sealed group is not looked up and
leaves no record. A compilation that ends well adds how many instructions there are.
-/
namespace BraceTemplate

def found (groups : List Nested) : List Nested :=
  (groups.takeWhile fun n => ¬ (n.Live ∧ n.Unknown)).filter fun n => n.Live

theorem passes_of_firstFault_eq_none {groups : List Nested} (h : firstFault groups = none) :
    ∀ n ∈ groups, decide (¬ (n.Live ∧ n.Unknown)) = true := by
  intro n hn
  rw [decide_eq_true_eq, not_and]
  exact firstFault_eq_none_iff.mp h n hn

theorem found_of_firstFault_eq_none {groups : List Nested} (h : firstFault groups = none) :
    found groups = groups.filter fun n => n.Live := by
  rw [found, List.takeWhile_eq_self_iff.mpr (passes_of_firstFault_eq_none h)]

theorem found_append_of_none {groups : List Nested} (h : firstFault groups = none)
    (others : List Nested) : found (groups ++ others) = found groups ++ found others := by
  rw [found_of_firstFault_eq_none h, found,
    List.takeWhile_append_of_pos (passes_of_firstFault_eq_none h), List.filter_append, found]

theorem exists_split_of_firstFault {groups : List Nested} {n : Nested}
    (h : firstFault groups = some n) : ∃ before after, groups = before ++ n :: after ∧
      firstFault before = none ∧ n.Live ∧ n.Unknown := by
  obtain ⟨hfault, before, after, rfl, hbefore⟩ := List.find?_eq_some_iff_append.mp h
  obtain ⟨hlive, hunknown⟩ : n.Live ∧ n.Unknown := by simpa using hfault
  refine ⟨before, after, rfl, firstFault_eq_none_iff.mpr ?_, hlive, hunknown⟩
  intro m hm
  simpa [imp_iff_not_or] using hbefore m hm

theorem found_split {before : List Nested} (hbefore : firstFault before = none) {n : Nested}
    (hlive : n.Live) (hunknown : n.Unknown) (after : List Nested) :
    found (before ++ n :: after) = before.filter fun n => n.Live := by
  have hstop : found (n :: after) = [] := by simp [found, hlive, hunknown]
  rw [found_append_of_none hbefore, hstop, List.append_nil, found_of_firstFault_eq_none hbefore]

theorem found_append_of_some {groups : List Nested} {n : Nested} (h : firstFault groups = some n)
    (others : List Nested) : found (groups ++ others) = found groups := by
  obtain ⟨before, after, rfl, hbefore, hlive, hunknown⟩ := exists_split_of_firstFault h
  rw [List.append_assoc, List.cons_append, found_split hbefore hlive hunknown,
    found_split hbefore hlive hunknown]

/-- As the offsets increase, what is found are the live groups that open before the first fault. -/
theorem found_eq_filter_start {groups : List Nested} {n : Nested}
    (hstart : groups.Pairwise fun m n => m.start < n.start) (h : firstFault groups = some n) :
    found groups = groups.filter fun m => m.Live ∧ m.start < n.start := by
  obtain ⟨before, after, rfl, hbefore, hlive, hunknown⟩ := exists_split_of_firstFault h
  obtain ⟨-, hafter, hless⟩ := List.pairwise_append.mp hstart
  rw [found_split hbefore hlive hunknown, List.filter_append]
  have hfront : before.filter (fun m => m.Live ∧ m.start < n.start) =
      before.filter fun m => m.Live := by
    refine List.filter_congr fun m hm => ?_
    simp [hless m hm n List.mem_cons_self]
  have hback : (n :: after).filter (fun m => m.Live ∧ m.start < n.start) = [] := by
    refine List.filter_eq_nil_iff.mpr fun m hm => ?_
    rcases List.mem_cons.mp hm with rfl | hm
    · simp
    · have := (List.pairwise_cons.mp hafter).1 m hm
      simp [this.le]
  rw [hfront, hback, List.append_nil]

def dispatches (groups : List Nested) : List Event :=
  (found groups).map fun n => .dispatching n.group.token

theorem dispatches_append_of_none {groups : List Nested} (h : firstFault groups = none)
    (others : List Nested) : dispatches (groups ++ others) = dispatches groups ++ dispatches others := by
  rw [dispatches, found_append_of_none h, List.map_append, dispatches, dispatches]

theorem dispatches_append_of_some {groups : List Nested} {n : Nested} (h : firstFault groups = some n)
    (others : List Nested) : dispatches (groups ++ others) = dispatches groups := by
  rw [dispatches, found_append_of_some h, dispatches]

theorem dispatches_cons_of_known {n : Nested} (hlive : n.Live) (hname : n.group.token ∈ Builtin.names)
    (others : List Nested) :
    dispatches (n :: others) = .dispatching n.group.token :: dispatches others := by
  simp [dispatches, found, hlive, Nested.Unknown, hname]

theorem dispatches_cons_of_unknown {n : Nested} (hlive : n.Live)
    (hname : n.group.token ∉ Builtin.names) (others : List Nested) : dispatches (n :: others) = [] := by
  simp [dispatches, found, hlive, Nested.Unknown, hname]

namespace Builtin

section Runs
variable (compile : Group → Visit Fragment) (group : Group)

theorem events_leaf (make : String → Instruction) : ((leaf make).run compile group).events = [] := rfl

theorem events_verbatim : (verbatim.run compile group).events = [] := rfl

theorem events_block (make : String → Fragment → Instruction) :
    ((block make).run compile group).events = (group.dropToken.visitChildren compile).events := by
  change ((group.dropToken.visitChildren compile).andThen _ _).events = _
  rw [Visit.andThen]
  cases (group.dropToken.visitChildren compile).outcome with
  | error failure => rfl
  | ok body => exact List.append_nil _

theorem events_inPlace :
    (inPlace.run compile group).events = (group.visitChildren compile).events := by
  change ((group.visitChildren compile).andThen _ _).events = _
  rw [Visit.andThen]
  cases (group.visitChildren compile).outcome with
  | error failure => rfl
  | ok body => exact List.append_nil _

end Runs

/-- Whether a macro logs nothing for a sealed group, and what its nested groups log for another one. -/
def LogsNested (script : Macro) (group : Group) : Prop :=
  group.Sealed ∧ (∀ compile, (script.run compile group.dropToken).events = []) ∨
  ¬ group.Sealed ∧ ∃ head, ∀ compile,
    (script.run compile group.dropToken).events = ((group.setHead head).visitChildren compile).events

theorem logsNested_block (make : String → Fragment → Instruction) {group : Group}
    (hopen : ¬ group.Sealed) : LogsNested (block make) group := by
  have hdrop : group.dropToken.dropToken =
      group.setHead (Text.afterToken (Text.afterToken group.head)) := by
    cases group <;> rfl
  refine .inr ⟨hopen, Text.afterToken (Text.afterToken group.head), fun compile => ?_⟩
  rw [events_block, hdrop]

theorem exists_find?_table {group : Group} (h : group.token ∈ names) :
    ∃ script, table.find? group.token = some (.usable label script) ∧ LogsNested script group := by
  simp only [names, macros, List.map_cons, List.map_nil, List.mem_cons, List.not_mem_nil, or_false] at h
  simp only [find?_table]
  rcases h with hname | hname | hname | hname | hname | hname | hname | hname
  · exact ⟨leaf .value, by rw [hname]; rfl,
      .inl ⟨by simp [Group.Sealed, hname], fun compile => events_leaf ..⟩⟩
  · exact ⟨_, by rw [hname]; rfl, logsNested_block _ (by simp [Group.Sealed, hname])⟩
  · exact ⟨_, by rw [hname]; rfl, logsNested_block _ (by simp [Group.Sealed, hname])⟩
  · exact ⟨_, by rw [hname]; rfl, logsNested_block _ (by simp [Group.Sealed, hname])⟩
  · exact ⟨leaf .location, by rw [hname]; rfl,
      .inl ⟨by simp [Group.Sealed, hname], fun compile => events_leaf ..⟩⟩
  · exact ⟨inPlace, by rw [hname]; rfl,
      .inr ⟨by simp [Group.Sealed, hname], _, fun compile => events_inPlace ..⟩⟩
  · exact ⟨verbatim, by rw [hname]; rfl,
      .inl ⟨by simp [Group.Sealed, hname], fun compile => events_verbatim ..⟩⟩
  · exact ⟨leaf .call, by rw [hname]; rfl,
      .inl ⟨by simp [Group.Sealed, hname], fun compile => events_leaf ..⟩⟩

end Builtin

namespace Group
open Outcome

/-- Whether compiling the group gives its translation, and logs what is found in it, wherever it stands. -/
structure Dispatches (compile : Group → Visit Fragment) (group : Group) : Prop where
  outcome_eq : (compile group).outcome = group.translation
  events_eq : ∀ opening around, (∀ outer ∈ around, ¬ outer.Sealed) →
    (compile group).events = dispatches (group.nestedAt opening around)

/-- The nested groups are logged one after the other, until one fails. The head of the group does not
matter, for it may be stripped. -/
theorem events_visitChildren {compile : Group → Visit Fragment} {group : Group}
    (h : ∀ inner ∈ group.groups, Dispatches compile inner) (head : String) (start : Nat)
    {around : List Group} (haround : ∀ outer ∈ around, ¬ outer.Sealed) :
    ((group.setHead head).visitChildren compile).events =
      dispatches (group.nestedFrom start around) := by
  induction group generalizing head start with
  | text => rfl
  | nest first inner rest _ ih =>
    have hinner := h inner List.mem_cons_self
    have hblames := inner.translation_blames (start + first.length) haround
    have hrest := ih (fun next hnext => h next (List.mem_cons_of_mem _ hnext)) rest.head
      (start + first.length + inner.source.length)
    rw [setHead_head] at hrest
    rw [nestedFrom_nest, setHead, visitChildren, hinner.outcome_eq, hinner.events_eq _ _ haround]
    cases hfault : firstFault (inner.nestedAt (start + first.length) around) with
    | none =>
      rw [hfault] at hblames
      obtain ⟨fragment, hfragment⟩ := hblames
      rw [dispatches_append_of_none hfault, hfragment, ← hrest]
    | some n =>
      rw [hfault] at hblames
      have hfailure : inner.translation = .error (.unknownMacro n.group.token) := hblames
      rw [dispatches_append_of_some hfault, hfailure]

theorem dispatches_eq_nil_of_sealed {group outer : Group} {start : Nat} {around : List Group}
    (houter : outer ∈ around) (hsealed : outer.Sealed) :
    dispatches (group.nestedFrom start around) = [] := by
  have hnone : found (group.nestedFrom start around) = [] := by
    rw [found_of_firstFault_eq_none (firstFault_eq_none_of_sealed houter hsealed),
      List.filter_eq_nil_iff]
    intro n hn
    have hlive : ¬ n.Live := fun h => h outer (mem_around_of_mem_nestedFrom hn houter) hsealed
    simp [hlive]
  rw [dispatches, hnone, List.map_nil]

end Group

namespace Compiler
open Outcome

section Step
variable {macros : Table Macro} (hmacros : FindsBuiltin macros) {limit : Nat} {group : Group}
include hmacros

theorem events_transformWithin_unknown (h : group.token ∉ Builtin.names) :
    (transformWithin macros (limit + 1) group).events = [] := by
  have hnone : macros.find? group.token = none :=
    (hmacros _).trans (Builtin.find?_table_eq_none h)
  simp [transformWithin, hnone, Visit.fail]

theorem events_transformWithin_known (limit : Nat) (h : group.token ∈ Builtin.names) :
    ∃ script, Builtin.LogsNested script group ∧
      (transformWithin macros (limit + 1) group).events = .dispatching group.token ::
        (script.run (transformWithin macros limit) group.dropToken).events := by
  obtain ⟨script, hfind, hlogs⟩ := Builtin.exists_find?_table h
  refine ⟨script, hlogs, ?_⟩
  rw [← hmacros] at hfind
  simp [transformWithin, hfind, invoke, Visit.after]

theorem events_transformWithin_succ
    (hinner : ∀ inner ∈ group.groups, inner.Dispatches (transformWithin macros limit))
    (opening : Nat) {around : List Group} (haround : ∀ outer ∈ around, ¬ outer.Sealed) :
    (transformWithin macros (limit + 1) group).events =
      dispatches (group.nestedAt opening around) := by
  have hlive : Nested.Live ⟨opening, around, group⟩ := haround
  rw [Group.nestedAt]
  by_cases hname : group.token ∈ Builtin.names
  · obtain ⟨script, hlogs, hevents⟩ := events_transformWithin_known hmacros limit hname
    rw [hevents, dispatches_cons_of_known hlive hname]
    rcases hlogs with ⟨hsealed, hnothing⟩ | ⟨hopen, head, hnested⟩
    · rw [hnothing, Group.dispatches_eq_nil_of_sealed List.mem_cons_self hsealed]
    · rw [hnested, Group.events_visitChildren hinner head (opening + 1)
        (List.forall_mem_cons.mpr ⟨hopen, haround⟩)]
  · rw [events_transformWithin_unknown hmacros hname, dispatches_cons_of_unknown hlive hname]

/-- With a limit that reaches down the tree, the log is that of the groups that are found. -/
theorem dispatches_transformWithin (hlimit : group.height ≤ limit) :
    group.Dispatches (transformWithin macros limit) := by
  refine ⟨outcome_transformWithin hmacros hlimit, ?_⟩
  induction limit generalizing group with
  | zero =>
    have hpos := group.height_pos
    omega
  | succ limit ih =>
    intro opening around haround
    refine events_transformWithin_succ hmacros (fun inner hinner => ?_) opening haround
    have hheight := Group.height_lt_of_mem_groups hinner
    exact ⟨outcome_transformWithin hmacros (by omega), ih (by omega)⟩

end Step

theorem events_transform_rootOf {compiler : Compiler} (hmacros : FindsBuiltin compiler.macros)
    (tree : Group) :
    (compiler.transform (rootOf tree)).events =
      .dispatching outputMacro :: dispatches tree.nested := by
  have hname : (rootOf tree).token ∈ Builtin.names := by rw [token_rootOf]; decide
  have hopen : ¬ (rootOf tree).Sealed := by rw [Group.Sealed, token_rootOf]; decide
  have hheight : (rootOf tree).height = tree.height := Group.height_setHead _ _
  obtain ⟨limit, hlimit⟩ : ∃ limit, compiler.limitFor (rootOf tree) = limit + 1 := by
    have hpos := tree.height_pos
    exact ⟨compiler.limitFor (rootOf tree) - 1, by rw [limitFor, hheight]; omega⟩
  obtain ⟨script, hlogs, hevents⟩ := events_transformWithin_known hmacros limit hname
  rw [transform, hlimit, hevents, token_rootOf]
  rcases hlogs with ⟨hsealed, -⟩ | ⟨-, head, hnested⟩
  · exact absurd hsealed hopen
  · have hinner : ∀ inner ∈ tree.groups, inner.Dispatches (transformWithin compiler.macros limit) := by
      intro inner hinner
      have hlt := Group.height_lt_of_mem_groups hinner
      rw [limitFor, hheight] at hlimit
      exact dispatches_transformWithin hmacros (by omega)
    have hset : (rootOf tree).setHead head = tree.setHead head := by cases tree <;> rfl
    rw [hnested, hset, Group.nested]
    exact congrArg _ (Group.events_visitChildren hinner head 0 (List.forall_mem_nil _))

theorem events_compileTree (compiler : Compiler) (tree : Group) :
    (compiler.compileTree tree).events = (compiler.transform (rootOf tree)).events ++
      match (compiler.compileTree tree).outcome with
      | .ok program => [.compiled (Instruction.bodySize program.body)]
      | .error _ => [] := by
  rw [compileTree, Visit.andThen]
  cases (compiler.transform (rootOf tree)).outcome with
  | ok body => simp [Visit.after, Program.walk, Instruction.length_walk]
  | error failure => simp

/-- The records of a compilation that looks up these groups. -/
def lookups (groups : List Nested) : List Event :=
  .dispatching outputMacro :: groups.map fun n => .dispatching n.group.token

theorem message_lookups (groups : List Nested) :
    (lookups groups).map Event.message =
      "Dispatching macro 'out'" :: groups.map fun n =>
        "Dispatching macro " ++ Text.quoted n.group.token := by
  have hout : Event.message (.dispatching outputMacro) = "Dispatching macro 'out'" := by rfl
  rw [lookups, List.map_cons, hout, List.map_map]
  rfl

theorem events_compileSource {source : String} {tree : Group}
    (hparse : Group.parse source = .ok tree) :
    ((ofMacros .empty).compileSource source).events =
      lookups (found tree.nested) ++
        match ((ofMacros .empty).compileSource source).outcome with
        | .ok program => [.compiled (Instruction.bodySize program.body)]
        | .error _ => [] := by
  simp only [compileSource, hparse]
  rw [events_compileTree, events_transform_rootOf findsBuiltin, dispatches, lookups]

/-- The log of a template with balanced braces names the implicit group, and the live groups as their
braces open. It ends with the number of instructions, or before the first live group that is unknown. -/
theorem compileSource_logged {source : String} (hbalanced : Text.Balanced source) :
    ∃ tree, Group.parse source = .ok tree ∧
      (∀ n ∈ tree.nested, ∃ before after,
        source = before ++ n.group.source ++ after ∧ n.start = before.length) ∧
      tree.nested.length = source.toList.count '\x7b' ∧
      tree.nested.Pairwise (fun m n => m.start < n.start) ∧
      ((∃ program, ((ofMacros .empty).compileSource source).outcome = .ok program ∧
        ((ofMacros .empty).compileSource source).events =
          lookups (tree.nested.filter fun n => n.Live) ++
            [.compiled (Instruction.bodySize program.body)] ∧
        ((ofMacros .empty).compileSource source).events.map Event.message =
          "Dispatching macro 'out'" :: (tree.nested.filter fun n => n.Live).map (fun n =>
            "Dispatching macro " ++ Text.quoted n.group.token) ++
          ["Compiled template to " ++ Value.natText (Instruction.bodySize program.body) ++
            " instructions"]) ∨
      (∃ n : Nested, n.IsFirstFault tree.nested ∧
        ((ofMacros .empty).compileSource source).outcome = .error (.unknownMacro n.group.token) ∧
        ((ofMacros .empty).compileSource source).events =
          lookups (tree.nested.filter fun m => m.Live ∧ m.start < n.start) ∧
        ((ofMacros .empty).compileSource source).events.map Event.message =
          "Dispatching macro 'out'" :: (tree.nested.filter fun m => m.Live ∧ m.start < n.start).map
            fun m => "Dispatching macro " ++ Text.quoted m.group.token)) := by
  obtain ⟨tree, hparse⟩ := Group.exists_parse_iff.mpr hbalanced
  obtain ⟨hfree, rfl⟩ := Group.parse_eq_ok_iff.mp hparse
  have hstart : tree.nested.Pairwise fun m n => m.start < n.start :=
    tree.pairwise_start_nestedFrom 0 []
  have hevents := events_compileSource hparse
  have houtcome := outcome_compileSource_firstFault hparse
  refine ⟨tree, hparse, ?_, Group.length_nestedFrom hfree 0 [], hstart, ?_⟩
  · intro n hn
    obtain ⟨before, after, hsource, hoffset⟩ := Group.exists_source_of_mem_nestedFrom hn
    exact ⟨before, after, hsource, by omega⟩
  · cases hfault : firstFault tree.nested with
    | none =>
      rw [hfault] at houtcome
      obtain ⟨program, hprogram⟩ := houtcome
      rw [hprogram, found_of_firstFault_eq_none hfault] at hevents
      refine .inl ⟨program, hprogram, hevents, ?_⟩
      rw [hevents, List.map_append, message_lookups]
      rfl
    | some n =>
      simp only [hfault] at houtcome
      rw [houtcome, found_eq_filter_start hstart hfault, List.append_nil] at hevents
      refine .inr ⟨n, isFirstFault_of_firstFault hstart hfault, houtcome, hevents, ?_⟩
      rw [hevents, message_lookups]

/-- The group `x` stands in a literal and leaves no record, while `has` and what is in it do. The group
`y` is unknown, and `fn` behind it is not reached. -/
theorem compileSource_logged_unknown :
    Text.Balanced "\x7bliteral \x7bx\x7d\x7d\x7bhas p \x7b. q\x7d\x7d\x7by\x7d\x7bfn f\x7d" ∧
    ((ofMacros .empty).compileSource
      "\x7bliteral \x7bx\x7d\x7d\x7bhas p \x7b. q\x7d\x7d\x7by\x7d\x7bfn f\x7d").events =
        [.dispatching "out", .dispatching "literal", .dispatching "has", .dispatching "."] := by
  have hparse : Group.parse
      "\x7bliteral \x7bx\x7d\x7d\x7bhas p \x7b. q\x7d\x7d\x7by\x7d\x7bfn f\x7d" =
        .ok (.nest "" (.nest "literal " (.text "x") (.text ""))
          (.nest "" (.nest "has p " (.text ". q") (.text ""))
            (.nest "" (.text "y") (.nest "" (.text "fn f") (.text ""))))) := by rfl
  have hbalanced := Group.exists_parse_iff.mp ⟨_, hparse⟩
  obtain ⟨tree, htree, -, -, hstart, hlog⟩ := compileSource_logged hbalanced
  cases hparse.symm.trans htree
  have hunknown : ((ofMacros .empty).compileSource
      "\x7bliteral \x7bx\x7d\x7d\x7bhas p \x7b. q\x7d\x7d\x7by\x7d\x7bfn f\x7d").outcome =
        .error (.unknownMacro "y") := by rfl
  refine ⟨hbalanced, ?_⟩
  rcases hlog with ⟨program, hprogram, -⟩ | ⟨n, hfault, -, hevents, -⟩
  · cases hunknown.symm.trans hprogram
  · cases (firstFault_eq_some_iff hstart).mpr hfault
    rw [hevents]
    decide +kernel

end Compiler
end BraceTemplate
