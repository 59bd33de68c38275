import BraceTemplate.Proofs.Compile.Outcome
import BraceTemplate.Proofs.Tree.Shifted

/-! # Blanks that only separate

The blanks in front of a template belong to nothing, and those behind the name of a group only keep the
name from what follows it. So do those behind the path of a group with a path and a body. How many there
are and which ones makes no difference to what a template compiles to, except inside a literal group,
which is written out with all its blanks.
-/
namespace BraceTemplate

namespace Text

theorem Blank.braceFree {gap : String} (h : Blank gap) : BraceFree gap := by
  intro c hc
  have hblank := h c hc
  constructor
  · rintro rfl
    exact absurd hblank (by decide)
  · rintro rfl
    exact absurd hblank (by decide)

/-- Whether a head ends in front of the text, that is, at a brace. -/
def StartsBrace (text : String) : Prop :=
  ∃ c cs, text.toList = c :: cs ∧ (c = '\x7b' ∨ c = '\x7d')

theorem eq_empty_of_startsBrace {rest tail : String} (hrest : BraceFree rest)
    (h : StartsBrace (rest ++ tail)) : rest = "" := by
  obtain ⟨c, cs, hcs, hc⟩ := h
  cases hlist : rest.toList with
  | nil => exact String.toList_eq_nil_iff.mp hlist
  | cons d ds =>
    rw [String.toList_append, hlist] at hcs
    obtain rfl : d = c := (List.cons.inj hcs).1
    have hfree := hrest d (by simp [hlist])
    rcases hc with rfl | rfl
    · exact absurd rfl hfree.1
    · exact absurd rfl hfree.2

theorem exists_rest_of_append_eq {head tail front behind : String} (hfront : BraceFree front)
    (htail : StartsBrace tail) (h : head ++ tail = front ++ behind) :
    ∃ rest, head = front ++ rest ∧ behind = rest ++ tail := by
  have hlist : head.toList ++ tail.toList = front.toList ++ behind.toList := by
    simpa using congrArg String.toList h
  rcases List.append_eq_append_iff.mp hlist with ⟨more, hmore, htail'⟩ | ⟨rest, hrest, hbehind⟩
  · -- the head is not shorter, for a brace would stand in the text
    have hsplit : String.ofList more ++ behind = tail :=
      String.toList_injective (by simpa using htail'.symm)
    have hfree : BraceFree (String.ofList more) := hfront.subset (by simp [hmore])
    have hempty := eq_empty_of_startsBrace hfree (hsplit ▸ htail)
    refine ⟨"", String.toList_injective ?_, ?_⟩
    · rw [String.append_empty, hmore, ← String.toList_ofList (l := more), hempty]
      simp
    · rw [← hsplit, hempty]
      simp
  · refine ⟨String.ofList rest, String.toList_injective ?_, String.toList_injective ?_⟩
    · simpa using hrest
    · simpa using hbehind

end Text

namespace Builtin

/-- The names of the groups that take a path and a body. -/
def blockNames : List String := ["->", "has", "each"]

/-- Of its head, a group with a path and a body sees the path and what the blanks behind it separate
from the path. -/
theorem expand_eq_of_mem_blockNames {group other : Group} (hname : group.token ∈ blockNames)
    (htoken : other.token = group.token)
    (hpath : Text.leadingToken (Text.afterToken other.head) =
      Text.leadingToken (Text.afterToken group.head))
    (hbody : Text.afterToken (Text.afterToken other.head) =
      Text.afterToken (Text.afterToken group.head)) (parts : Outcome Fragment) :
    expand other parts = expand group parts := by
  rw [expand, expand, htoken, hpath, hbody]
  simp only [blockNames, List.mem_cons, List.not_mem_nil, or_false] at hname
  rcases hname with hname | hname | hname <;> simp only [hname]

/-- But for a literal group, the head and what is nested determine what a group compiles to. -/
theorem expand_eq_of_head_eq {group other : Group} (hname : group.token ≠ "literal")
    (hhead : other.head = group.head) (parts : Outcome Fragment) :
    expand other parts = expand group parts := by
  have htoken : other.token = group.token := by rw [Group.token, Group.token, hhead]
  rw [expand, expand, htoken, hhead]
  split
  case h_7 hliteral => exact absurd hliteral hname
  all_goals rfl

end Builtin

namespace Group
open Text

/-- What stands in front of the blanks that separate: the name of a group, or the name of a group with a
body and its path. -/
inductive Invokes : String → Prop where
  | name {name : String} : BlankFree name → Invokes name
  | path {name between path : String} : name ∈ Builtin.blockNames → Blank between → between ≠ "" →
      BlankFree path → path ≠ "" → Invokes (name ++ between ++ path)

theorem translation_setHead {group : Group} {front gap gap' rest : String} (hfront : Invokes front)
    (hhead : group.head = front ++ gap ++ rest) (hgap : Blank gap) (hend : EndsWord (gap ++ rest))
    (hgap' : Blank gap') (hne : gap' ≠ "") :
    (group.setHead (front ++ gap' ++ rest)).translation = group.translation := by
  have hend' : EndsWord (gap' ++ rest) := endsWord_blank hgap' hne rest
  have hdrop : dropBlanks (gap' ++ rest) = dropBlanks (gap ++ rest) := by
    rw [dropBlanks_blank_append hgap', dropBlanks_blank_append hgap]
  rw [translation, translation, parts_setHead]
  cases hfront with
  | name hname =>
    rw [String.append_assoc] at hhead ⊢
    have htoken : (group.setHead (front ++ (gap' ++ rest))).token = group.token := by
      rw [token, token, head_setHead, hhead, leadingToken_append hname hend,
        leadingToken_append hname hend']
    have hargument : afterToken (front ++ (gap' ++ rest)) = afterToken group.head := by
      rw [hhead, afterToken_append hname hend, afterToken_append hname hend', hdrop]
    have hliteral (head head' : String) : (group.setHead head).setHead head' = group.setHead head' := by
      cases group <;> rfl
    rw [Builtin.expand, Builtin.expand, htoken, head_setHead, hargument, hliteral]
  | @path name between path hname hbetween hbetween' hpath hpath' =>
    have hword : BlankFree name := by
      simp only [Builtin.blockNames, List.mem_cons, List.not_mem_nil, or_false] at hname
      rcases hname with rfl | rfl | rfl <;> decide
    have hstart (more : String) : startsBlank (path ++ more) = false := by
      rw [startsBlank_append hpath', hpath.startsBlank]
    have hleading (more : String) :
        leadingToken (name ++ (between ++ (path ++ more))) = name :=
      leadingToken_append hword (endsWord_blank hbetween hbetween' _)
    have hafter (more : String) :
        afterToken (name ++ (between ++ (path ++ more))) = path ++ more := by
      rw [afterToken_append hword (endsWord_blank hbetween hbetween' _),
        dropBlanks_blank_append hbetween, dropBlanks_eq_self (hstart more)]
    simp only [String.append_assoc] at hhead ⊢
    have htoken : group.token = name := by rw [token, hhead, hleading]
    apply Builtin.expand_eq_of_mem_blockNames
    · rwa [htoken]
    · rw [htoken, token, head_setHead, hleading]
    · rw [head_setHead, hhead, hafter, hafter, leadingToken_append hpath hend,
        leadingToken_append hpath hend']
    · rw [head_setHead, hhead, hafter, hafter, afterToken_append hpath hend,
        afterToken_append hpath hend', hdrop]

/-- The second tree has the group `new` where the first has `old`, at a place in no literal group. -/
inductive Replaced (old new : Group) : Group → Group → Prop where
  | here {head : String} {rest : Group} : Replaced old new (.nest head old rest) (.nest head new rest)
  | inside {head : String} {inner inner' rest : Group} : inner.token ≠ "literal" →
      Replaced old new inner inner' → Replaced old new (.nest head inner rest) (.nest head inner' rest)
  | behind {head : String} {inner rest rest' : Group} : Replaced old new rest rest' →
      Replaced old new (.nest head inner rest) (.nest head inner rest')

section Replaced
variable {old new tree other : Group}

theorem Replaced.head_eq (h : Replaced old new tree other) : other.head = tree.head := by
  cases h <;> rfl

theorem Replaced.braceFree_old (h : Replaced old new tree other) (htree : tree.BraceFree) :
    old.BraceFree := by
  induction h with
  | here => exact htree.2.1
  | inside _ _ ih => exact ih htree.2.1
  | behind _ ih => exact ih htree.2.2

theorem Replaced.braceFree (h : Replaced old new tree other) (htree : tree.BraceFree)
    (hnew : new.BraceFree) : other.BraceFree := by
  induction h with
  | here => exact ⟨htree.1, hnew, htree.2.2⟩
  | inside _ _ ih => exact ⟨htree.1, ih htree.2.1, htree.2.2⟩
  | behind _ ih => exact ⟨htree.1, htree.2.1, ih htree.2.2⟩

theorem Replaced.parts_eq (h : Replaced old new tree other)
    (hsame : new.translation = old.translation) : other.parts = tree.parts := by
  induction h with
  | here =>
    rw [translation, translation] at hsame
    rw [parts, parts, hsame]
  | inside hname hinner ih =>
    have hexpand := Builtin.expand_eq_of_head_eq hname hinner.head_eq
    rw [parts, parts, ih, hexpand]
  | behind hrest ih => rw [parts, parts, ih, hrest.head_eq]

theorem Replaced.trimmed_content_eq (h : Replaced old new tree other)
    (hsame : new.translation = old.translation) : other.trimmed.content = tree.trimmed.content := by
  rw [trimmed, trimmed, content, content, head_setHead, head_setHead, parts_setHead, parts_setHead,
    h.head_eq, h.parts_eq hsame]

/-- A nested group may be replaced by any other, which stands in the source then where it stood. -/
theorem exists_replaced {group : Group} {start : Nat} {around : List Group} {n : Nested}
    (h : n ∈ group.nestedFrom start around) (houter : ∀ outer ∈ n.around, outer.token ≠ "literal") :
    ∃ before after, group.innerSource = before ++ n.group.source ++ after ∧
      n.start = start + before.length ∧
      ∀ new, ∃ other, Replaced n.group new group other ∧
        other.innerSource = before ++ new.source ++ after := by
  induction group generalizing start around with
  | text head => simp [nestedFrom] at h
  | nest head inner rest ihInner ihRest =>
    rcases mem_nestedFrom_nest.mp h with rfl | h | h
    · exact ⟨head, rest.innerSource, rfl, rfl, fun new => ⟨.nest head new rest, .here, rfl⟩⟩
    · obtain ⟨before, after, hsource, hstart, hreplace⟩ := ihInner h
      have hname := houter inner (mem_around_of_mem_nestedFrom h List.mem_cons_self)
      refine ⟨head ++ "\x7b" ++ before, after ++ "\x7d" ++ rest.innerSource, ?_, ?_, ?_⟩
      · rw [innerSource_nest, source, hsource]
        simp only [String.append_assoc]
      · have hbrace : "\x7b".length = 1 := rfl
        rw [hstart, String.length_append, String.length_append, hbrace]
        omega
      · intro new
        obtain ⟨other, hreplaced, hother⟩ := hreplace new
        refine ⟨.nest head other rest, .inside hname hreplaced, ?_⟩
        rw [innerSource_nest, source, hother]
        simp only [String.append_assoc]
    · obtain ⟨before, after, hsource, hstart, hreplace⟩ := ihRest h
      refine ⟨head ++ inner.source ++ before, after, ?_, ?_, ?_⟩
      · rw [innerSource_nest, hsource]
        simp only [String.append_assoc]
      · rw [hstart, String.length_append, String.length_append]
        omega
      · intro new
        obtain ⟨other, hreplaced, hother⟩ := hreplace new
        refine ⟨.nest head inner other, .behind hreplaced, ?_⟩
        rw [innerSource_nest, hother]
        simp only [String.append_assoc]

end Replaced

/-- In its source the head of a group ends at a brace, and another head may take its place. -/
theorem exists_tail_source (group : Group) (after : String) :
    ∃ tail, StartsBrace tail ∧
      ∀ head, (group.setHead head).source ++ after = "\x7b" ++ (head ++ tail) := by
  cases group with
  | text _ =>
    refine ⟨"\x7d" ++ after, ⟨_, _, String.toList_append, .inr rfl⟩, fun head => ?_⟩
    rw [setHead, source, innerSource]
    simp only [String.append_assoc]
  | nest _ inner rest =>
    refine ⟨"\x7b" ++ (inner.innerSource ++ "\x7d" ++ rest.innerSource ++ "\x7d" ++ after),
      ⟨_, _, String.toList_append, .inl rfl⟩, fun head => ?_⟩
    rw [setHead, source, innerSource]
    simp only [String.append_assoc]

end Group

/-- The first text is the template `before`, then a brace that opens a group, then what the group is
invoked by, the blanks behind this and the rest. The group is in no literal group. -/
structure Separates (source before front gap behind : String) : Prop where
  source_eq : source = before ++ "\x7b" ++ front ++ gap ++ behind
  group : ∃ tree, Group.parse source = .ok tree ∧ ∃ n ∈ tree.nested, n.start = before.length ∧
    ∀ outer ∈ n.around, outer.token ≠ "literal"
  invokes : Group.Invokes front
  braceFree : Text.BraceFree front
  blank : Text.Blank gap
  ends : gap = "" → Text.StartsBrace behind

/-- The failure when `k` more characters stand in front of the template. -/
def Failure.shifted (k : Nat) : Failure → Failure
  | unmatchedBrace position => unmatchedBrace (position + k)
  | failure => failure

namespace Group
open Text

theorem trimmed_setHead_blanks {blanks : String} (h : Blank blanks) (tree : Group) :
    (tree.setHead (blanks ++ tree.head)).trimmed = tree.trimmed := by
  rw [trimmed, head_setHead, dropBlanks_blank_append h]
  cases tree <;> rfl

/-- With other blanks the template is that of a tree that compiles to the same. -/
theorem exists_tree_of_separates {source before front gap behind gap' : String} {tree : Group}
    (h : Separates source before front gap behind) (hparse : parse source = .ok tree)
    (hgap' : Blank gap') (hne : gap' ≠ "") :
    ∃ other, parse (before ++ "\x7b" ++ front ++ gap' ++ behind) = .ok other ∧
      other.trimmed.content = tree.trimmed.content := by
  obtain ⟨hsource, ⟨tree', hparse', n, hn, hstart, houter⟩, hinvokes, hfront, hgap, hends⟩ := h
  obtain rfl : tree = tree' := Except.ok.inj (hparse.symm.trans hparse')
  obtain ⟨hfree, htree⟩ := parse_eq_ok_iff.mp hparse
  obtain ⟨front', after, hfront', hstart', hreplace⟩ := exists_replaced hn houter
  obtain ⟨tail, htail, hheads⟩ := n.group.exists_tail_source after
  -- the group stands behind `before`, and its head starts with what invokes it
  have hwhole : front' ++ (n.group.source ++ after) =
      before ++ ("\x7b" ++ (front ++ gap ++ behind)) := by
    rw [← String.append_assoc, ← hfront', htree, hsource]
    simp only [String.append_assoc]
  obtain ⟨rfl, hgroup⟩ : front' = before ∧
      n.group.source ++ after = "\x7b" ++ (front ++ gap ++ behind) := by
    have hlength : front'.toList.length = before.toList.length := by
      rw [String.length_toList, String.length_toList]
      omega
    have hlist := congrArg String.toList hwhole
    simp only [String.toList_append] at hlist
    obtain ⟨hfirst, hsecond⟩ := List.append_inj hlist hlength
    exact ⟨String.toList_injective hfirst, String.toList_injective (by simpa using hsecond)⟩
  have hhead := hheads n.group.head
  rw [setHead_head, hgroup, String.append_right_inj] at hhead
  obtain ⟨rest, hrest, rfl⟩ :=
    exists_rest_of_append_eq (braceFree_append.mpr ⟨hfront, hgap.braceFree⟩) htail hhead.symm
  obtain ⟨same, hkept, -⟩ := hreplace n.group
  have hgroupFree := hkept.braceFree_old hfree
  have hrestFree : Text.BraceFree rest := by
    have hheadFree := hgroupFree.head
    rw [hrest, braceFree_append] at hheadFree
    exact hheadFree.2
  have hend : EndsWord (gap ++ rest) := by
    by_cases hempty : gap = ""
    · left
      rw [hempty, eq_empty_of_startsBrace hrestFree (hends hempty), String.append_empty]
    · exact endsWord_blank hgap hempty rest
  have hheadFree' : Text.BraceFree (front ++ gap' ++ rest) :=
    braceFree_append.mpr ⟨braceFree_append.mpr ⟨hfront, hgap'.braceFree⟩, hrestFree⟩
  obtain ⟨other, hreplaced, hother⟩ := hreplace (n.group.setHead (front ++ gap' ++ rest))
  refine ⟨other, parse_eq_ok_iff.mpr ⟨hreplaced.braceFree hfree (hgroupFree.setHead hheadFree'), ?_⟩,
    hreplaced.trimmed_content_eq (translation_setHead hinvokes hrest hgap hend hgap' hne)⟩
  rw [hother, String.append_assoc, hheads]
  simp only [String.append_assoc]

end Group

namespace Compiler
open Text

theorem outcome_compileSource_blanks {blanks : String} (h : Blank blanks) (source : String) :
    ((ofMacros .empty).compileSource (blanks ++ source)).outcome =
      ((ofMacros .empty).compileSource source).outcome.mapError (Failure.shifted blanks.length) := by
  cases hparse : Group.parse source with
  | error position =>
    have hparse' := Group.parse_append_error h.braceFree hparse
    rw [compileSource, compileSource, hparse, hparse']
    rfl
  | ok tree =>
    have hparse' := Group.parse_append_ok h.braceFree hparse
    have houtcome := outcome_compileSource_firstFault hparse
    rw [outcome_compileSource findsBuiltin hparse', Group.trimmed_setHead_blanks h,
      ← outcome_compileSource findsBuiltin hparse]
    -- braces that balance leave no failure with a position
    cases hf : firstFault tree.nested with
    | none =>
      rw [hf] at houtcome
      obtain ⟨program, hprogram⟩ := houtcome
      rw [hprogram]
      rfl
    | some n =>
      simp only [hf] at houtcome
      rw [houtcome]
      rfl

/-- Blanks in front of a template change no more than the position of an unmatched brace. In a template
with balanced braces the blanks behind the name of a group, or behind the path of a group with a body, may
be exchanged for others, unless the group is in a literal group. -/
theorem compileSource_respaced :
    (∀ blanks source, Blank blanks →
      ((ofMacros .empty).compileSource (blanks ++ source)).outcome =
        ((ofMacros .empty).compileSource source).outcome.mapError
          (Failure.shifted blanks.length)) ∧
    ∀ source before front gap behind gap', Separates source before front gap behind →
      Blank gap' → gap' ≠ "" →
        ((ofMacros .empty).compileSource (before ++ "\x7b" ++ front ++ gap' ++ behind)).outcome =
          ((ofMacros .empty).compileSource source).outcome := by
  constructor
  · intro blanks source h
    exact outcome_compileSource_blanks h source
  · intro source before front gap behind gap' h hgap' hne
    obtain ⟨tree, hparse, -⟩ := h.group
    obtain ⟨other, hother, hcontent⟩ := Group.exists_tree_of_separates h hparse hgap' hne
    rw [outcome_compileSource findsBuiltin hother, outcome_compileSource findsBuiltin hparse, hcontent]

/-- A literal group with an unknown group in it, and a loop whose body is a group. -/
def spacedSource : String := "\x7bliteral \x7bx  y\x7d\x7d\x7beach  p\t\x7b. q\x7d z\x7d"

theorem separates_spacedSource :
    Separates spacedSource "\x7bliteral \x7bx  y\x7d\x7d" "each  p" "\t" "\x7b. q\x7d z\x7d" where
  source_eq := by decide
  group := by
    refine ⟨_, rfl, ⟨16, [], .nest "each  p\t" (.text ". q") (.text " z")⟩, ?_, rfl, by simp⟩
    decide
  invokes := @Group.Invokes.path "each" "  " "p" (by decide) (by decide) (by decide) (by decide)
    (by decide)
  braceFree := by decide
  blank := by decide
  ends := fun h => absurd h (by decide)

/-- The blanks behind the path of the loop end at a nested group. Others in their place leave the program as
it is, which keeps the blanks in the literal group and those in the body. -/
theorem compileSource_respaced_each :
    Blank "\n " ∧ ((ofMacros .empty).compileSource ("\n " ++ "a\x7d")).outcome =
      .error (.unmatchedBrace 3) ∧
    Separates spacedSource "\x7bliteral \x7bx  y\x7d\x7d" "each  p" "\t" "\x7b. q\x7d z\x7d" ∧
    Blank " \n" ∧ " \n" ≠ "" ∧
    ((ofMacros .empty).compileSource
      "\x7bliteral \x7bx  y\x7d\x7d\x7beach  p \n\x7b. q\x7d z\x7d").outcome =
        .ok ⟨[.verbatim "\x7bx  y\x7d", .forEach "p" [.value "q", .literal " z"]]⟩ := by
  have hblanks : Blank "\n " := by decide
  have hgap : Blank " \n" := by decide
  have hfront := compileSource_respaced.1 "\n " "a\x7d" hblanks
  have hsame := compileSource_respaced.2 _ _ _ _ _ " \n" separates_spacedSource hgap (by decide)
  have hprogram : ((ofMacros .empty).compileSource spacedSource).outcome =
      .ok ⟨[.verbatim "\x7bx  y\x7d", .forEach "p" [.value "q", .literal " z"]]⟩ := by
    have hparse : Group.parse spacedSource = .ok _ := rfl
    rw [outcome_compileSource findsBuiltin hparse]
    rfl
  exact ⟨hblanks, hfront, separates_spacedSource, hgap, by decide, hsame.trans hprogram⟩

end Compiler
end BraceTemplate
