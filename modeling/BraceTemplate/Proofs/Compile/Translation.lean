import BraceTemplate.Compiler
import BraceTemplate.Proofs.Table.Lookup
import BraceTemplate.Proofs.Text.Words

/-! # What the built-in macros compile a template to

With the built-in macros, a group compiles to a fragment that its source alone determines: a macro
sees the head of its own group, and what the nested groups and the texts behind them compile to.
The translation of a tree says so by recursion on the tree, which is left as it is; no limit on
nested macros appears in it, since the compiler allows for the height of the tree.
-/
namespace BraceTemplate

namespace Outcome

theorem map_eq_ok_iff {α β : Type} {outcome : Outcome α} {f : α → β} {b : β} :
    outcome.map f = .ok b ↔ ∃ a, outcome = .ok a ∧ f a = b := by
  cases outcome <;> simp [Except.map]

theorem bind_eq_ok_iff {α β : Type} {outcome : Outcome α} {f : α → Outcome β} {b : β} :
    outcome.bind f = .ok b ↔ ∃ a, outcome = .ok a ∧ f a = .ok b := by
  cases outcome <;> simp [Except.bind]

def behind (head : String) (parts : Outcome Fragment) : Outcome Fragment :=
  parts.map (Script.literals head ++ ·)

end Outcome

namespace Builtin

/-- What a group compiles to, if `parts` is what the nested groups and the texts behind them do. -/
def expand (group : Group) (parts : Outcome Fragment) : Outcome Fragment :=
  let argument := Text.afterToken group.head
  let path := Text.leadingToken argument
  let body := Outcome.behind (Text.afterToken argument) parts
  match group.token with
  | "." => .ok [.value path]
  | "->" => body.map fun body => [.within path body]
  | "has" => body.map fun body => [.ifDefined path body]
  | "each" => body.map fun body => [.forEach path body]
  | "path" => .ok [.location path]
  | "out" => Outcome.behind argument parts
  | "literal" => .ok [.verbatim (group.setHead argument).innerSource]
  | "fn" => .ok [.call path]
  | name => .error (.unknownMacro name)

end Builtin

namespace Group

/-- What the nested groups and the texts behind them compile to, without the head. -/
def parts : Group → Outcome Fragment
  | text _ => .ok []
  | nest _ inner rest =>
    (Builtin.expand inner inner.parts).bind fun fragment =>
      (Outcome.behind rest.head rest.parts).map (fragment ++ ·)

def translation (group : Group) : Outcome Fragment := Builtin.expand group group.parts

/-- What a group compiles to in place, with its whole head as a text. -/
def content (group : Group) : Outcome Fragment := Outcome.behind group.head group.parts

def trimmed (group : Group) : Group := group.setHead (Text.dropBlanks group.head)

theorem startsBlank_innerSource (group : Group) :
    Text.startsBlank group.innerSource = Text.startsBlank group.head := by
  cases group with
  | text head => rfl
  | nest head inner rest =>
    rw [innerSource, Group.head, String.append_assoc]
    by_cases h : head = ""
    · subst h
      rw [String.empty_append, String.append_assoc, String.append_assoc,
        Text.startsBlank_append (by decide)]
      decide
    · exact Text.startsBlank_append h _

@[simp] theorem parts_setHead (group : Group) (head : String) :
    (group.setHead head).parts = group.parts := by
  cases group <;> rfl

@[simp] theorem content_text (head : String) : (text head).content = .ok (Script.literals head) := by
  simp [content, Outcome.behind, parts, Group.head, Except.map]

theorem content_nest (head : String) (inner rest : Group) :
    (nest head inner rest).content = inner.translation.bind fun fragment =>
      rest.content.map (Script.literals head ++ fragment ++ ·) := by
  rw [content, parts, translation, content, Group.head]
  cases Builtin.expand inner inner.parts with
  | error failure => rfl
  | ok fragment =>
    cases Outcome.behind rest.head rest.parts with
    | error failure => rfl
    | ok others => simp [Outcome.behind, Except.bind, Except.map]

theorem height_lt_of_mem_groups {group inner : Group} (h : inner ∈ group.groups) :
    inner.height < group.height := by
  induction group with
  | text head => simp [groups] at h
  | nest head first rest _ ih =>
    rw [height]
    rcases List.mem_cons.mp h with rfl | h
    · omega
    · have := ih h
      omega

theorem height_pos (group : Group) : 0 < group.height := by
  induction group with
  | text head => exact Nat.one_pos
  | nest head inner rest _ _ => rw [height]; omega

theorem outcome_visitChildren {compile : Group → Visit Fragment} {group : Group}
    (h : ∀ inner ∈ group.groups, (compile inner).outcome = inner.translation) :
    (group.visitChildren compile).outcome = group.content := by
  induction group with
  | text head => rw [content_text]; rfl
  | nest head inner rest _ ih =>
    have hinner := h inner List.mem_cons_self
    have hrest := ih fun next hnext => h next (List.mem_cons_of_mem _ hnext)
    rw [content_nest, visitChildren, ← hinner]
    cases hi : (compile inner).outcome with
    | error failure => simp [Except.bind]
    | ok fragment => simp [Except.bind, hrest]

end Group

namespace Builtin

theorem find?_table (name : String) :
    table.find? name = (macros.map fun m => (m.1, .usable label m.2)).reverse.lookup name :=
  Table.find?_ofEntries _ name

variable (compile : Group → Visit Fragment) (group : Group)

theorem outcome_leaf (make : String → Instruction) :
    ((leaf make).run compile group).outcome.bind Product.toFragment =
      .ok [make (Text.leadingToken group.head)] := rfl

theorem outcome_block (make : String → Fragment → Instruction) :
    ((block make).run compile group).outcome.bind Product.toFragment =
      (group.dropToken.visitChildren compile).outcome.map fun body =>
        [make (Text.leadingToken group.head) body] := by
  change ((group.dropToken.visitChildren compile).andThen _ _).outcome.bind _ = _
  rw [Visit.andThen]
  cases (group.dropToken.visitChildren compile).outcome <;> rfl

theorem outcome_inPlace :
    (inPlace.run compile group).outcome.bind Product.toFragment =
      (group.visitChildren compile).outcome := by
  change ((group.visitChildren compile).andThen _ _).outcome.bind _ = _
  rw [Visit.andThen]
  cases (group.visitChildren compile).outcome with
  | error failure => rfl
  | ok body => exact Product.toFragment_ofFragment body

theorem outcome_verbatim :
    (verbatim.run compile group).outcome.bind Product.toFragment =
      .ok [.verbatim group.innerSource] := rfl

end Builtin

namespace Compiler

theorem outcome_transformWithin_usable {macros : Table Macro} {group : Group} {label : String}
    {script : Macro} (h : macros.find? group.token = some (.usable label script)) (limit : Nat) :
    (transformWithin macros (limit + 1) group).outcome =
      (script.run (transformWithin macros limit) group.dropToken).outcome.bind
        Product.toFragment := by
  simp [transformWithin, h, invoke]

theorem outcome_transformWithin_none {macros : Table Macro} {group : Group}
    (h : macros.find? group.token = none) (limit : Nat) :
    (transformWithin macros (limit + 1) group).outcome = .error (.unknownMacro group.token) := by
  simp [transformWithin, h, Visit.fail]

/-- Whether a table finds the built-in macros and no others. -/
def FindsBuiltin (macros : Table Macro) : Prop :=
  ∀ name, macros.find? name = Builtin.table.find? name

section Step
variable {macros : Table Macro} {limit : Nat} {group : Group}

theorem outcome_transformWithin_leaf {make : String → Instruction}
    (h : macros.find? group.token = some (.usable Builtin.label (Builtin.leaf make))) :
    (transformWithin macros (limit + 1) group).outcome =
      .ok [make (Text.leadingToken (Text.afterToken group.head))] := by
  rw [outcome_transformWithin_usable h, Builtin.outcome_leaf, Group.head_dropToken]

theorem outcome_visitChildren_setHead {compile : Group → Visit Fragment}
    (hinner : ∀ inner ∈ group.groups, (compile inner).outcome = inner.translation)
    (head : String) :
    ((group.setHead head).visitChildren compile).outcome = Outcome.behind head group.parts := by
  have hgroups : ∀ inner ∈ (group.setHead head).groups,
      (compile inner).outcome = inner.translation := by
    rw [Group.groups_setHead]
    exact hinner
  rw [Group.outcome_visitChildren hgroups, Group.content, Group.head_setHead, Group.parts_setHead]

variable (hinner : ∀ inner ∈ group.groups,
  (transformWithin macros limit inner).outcome = inner.translation)
include hinner

theorem outcome_transformWithin_block {make : String → Fragment → Instruction}
    (h : macros.find? group.token = some (.usable Builtin.label (Builtin.block make))) :
    (transformWithin macros (limit + 1) group).outcome =
      (Outcome.behind (Text.afterToken (Text.afterToken group.head)) group.parts).map
        fun body => [make (Text.leadingToken (Text.afterToken group.head)) body] := by
  have hdrop : group.dropToken.dropToken =
      group.setHead (Text.afterToken (Text.afterToken group.head)) := by
    cases group <;> rfl
  rw [outcome_transformWithin_usable h, Builtin.outcome_block, hdrop,
    outcome_visitChildren_setHead hinner, Group.head_dropToken]

theorem outcome_transformWithin_inPlace
    (h : macros.find? group.token = some (.usable Builtin.label Builtin.inPlace)) :
    (transformWithin macros (limit + 1) group).outcome =
      Outcome.behind (Text.afterToken group.head) group.parts := by
  rw [outcome_transformWithin_usable h, Builtin.outcome_inPlace, Group.dropToken,
    outcome_visitChildren_setHead hinner]

theorem outcome_transformWithin_succ (hmacros : FindsBuiltin macros) :
    (transformWithin macros (limit + 1) group).outcome = group.translation := by
  have hfind := hmacros group.token
  rw [Builtin.find?_table] at hfind
  rw [Group.translation, Builtin.expand]
  split
  next hname => exact outcome_transformWithin_leaf (by rw [hfind, hname]; rfl)
  next hname => exact outcome_transformWithin_block hinner (by rw [hfind, hname]; rfl)
  next hname => exact outcome_transformWithin_block hinner (by rw [hfind, hname]; rfl)
  next hname => exact outcome_transformWithin_block hinner (by rw [hfind, hname]; rfl)
  next hname => exact outcome_transformWithin_leaf (by rw [hfind, hname]; rfl)
  next hname => exact outcome_transformWithin_inPlace hinner (by rw [hfind, hname]; rfl)
  next hname =>
    rw [outcome_transformWithin_usable (by rw [hfind, hname]; rfl), Builtin.outcome_verbatim]
    rfl
  next hname => exact outcome_transformWithin_leaf (by rw [hfind, hname]; rfl)
  next =>
    apply outcome_transformWithin_none
    rw [hfind, List.lookup_eq_none_iff]
    simp_all [Builtin.macros]

end Step

theorem outcome_transformWithin {macros : Table Macro} (hmacros : FindsBuiltin macros)
    {limit : Nat} {group : Group} (hlimit : group.height ≤ limit) :
    (transformWithin macros limit group).outcome = group.translation := by
  induction limit generalizing group with
  | zero =>
    have hpos := group.height_pos
    omega
  | succ limit ih =>
    refine outcome_transformWithin_succ (fun inner hinner => ih ?_) hmacros
    have hheight := Group.height_lt_of_mem_groups hinner
    omega

theorem findsBuiltin_ofMacros {overrides : Table Macro}
    (h : ∀ name, overrides.find? name = none) : FindsBuiltin (ofMacros overrides).macros := by
  intro name
  change (Table.layered overrides Builtin.table).find? name = _
  rw [Table.find?_layered, h, Option.none_or]

theorem blankFree_outputMacro : Text.BlankFree outputMacro := by decide

theorem token_rootOf (tree : Group) : (rootOf tree).token = outputMacro := by
  rw [Group.token, rootOf, Group.head_setHead]
  exact Text.leadingToken_word_blank blankFree_outputMacro tree.head

/-- As the argument of the implicit group, a template loses the blanks at its start. -/
theorem translation_rootOf (tree : Group) :
    (rootOf tree).translation = tree.trimmed.content := by
  have hargument : Text.afterToken (rootOf tree).head = Text.dropBlanks tree.head := by
    rw [rootOf, Group.head_setHead]
    exact Text.afterToken_word_blank blankFree_outputMacro tree.head
  rw [Group.translation, Builtin.expand, token_rootOf, outputMacro, hargument]
  simp [rootOf, Group.trimmed, Group.content]

theorem outcome_compileTree {compiler : Compiler} (h : FindsBuiltin compiler.macros)
    (tree : Group) :
    (compiler.compileTree tree).outcome = tree.trimmed.content.map Program.mk := by
  have htransform : (compiler.transform (rootOf tree)).outcome = tree.trimmed.content := by
    rw [transform, limitFor, outcome_transformWithin h (Nat.le_add_right _ _), translation_rootOf]
  rw [compileTree, Visit.andThen, htransform]
  cases tree.trimmed.content <;> rfl

theorem outcome_compileSource {compiler : Compiler} (h : FindsBuiltin compiler.macros)
    {source : String} {tree : Group} (hparse : Group.parse source = .ok tree) :
    (compiler.compileSource source).outcome = tree.trimmed.content.map Program.mk := by
  rw [compileSource, hparse]
  exact outcome_compileTree h tree

theorem exists_parse_of_compileSource {compiler : Compiler} {source : String} {program : Program}
    (h : (compiler.compileSource source).outcome = .ok program) :
    ∃ tree, Group.parse source = .ok tree := by
  cases hparse : Group.parse source with
  | error position => simp [compileSource, hparse, Traced.fail] at h
  | ok tree => exact ⟨tree, rfl⟩

end Compiler
end BraceTemplate
