import BraceTemplate.Proofs.Compile.Image
import BraceTemplate.Proofs.Compile.Outcome
import BraceTemplate.Proofs.Render.Concatenation
import BraceTemplate.Proofs.Tree.Nested

/-! # Templates in a template

A template that stands in the group `literal` is written out and not compiled, whatever the groups in it
are called. It is taken apart by the reader and put together again from the pieces; only the blanks in
front of it are lost, since they separate it from the name of the group.
-/
namespace BraceTemplate

def literalSource (source : String) : String := "\x7bliteral " ++ source ++ "\x7d"

namespace Group

theorem innerSource_trimmed (group : Group) :
    group.trimmed.innerSource = Text.dropBlanks group.innerSource := by
  cases group with
  | text head => rfl
  | nest head inner rest =>
    have hsource (front : String) : (nest front inner rest).innerSource =
        front ++ (inner.source ++ rest.innerSource) := by
      rw [innerSource_nest, String.append_assoc]
    have hbrace : Text.startsBlank (inner.source ++ rest.innerSource) = false := by
      rw [source, String.append_assoc, String.append_assoc, Text.startsBlank_append (by decide)]
      decide
    change (nest (Text.dropBlanks head) inner rest).innerSource = _
    rw [hsource, hsource, Text.dropBlanks_append head hbrace]

/-- The group that a template is put in to be written out. -/
def quoted (tree : Group) : Group := tree.setHead (Text.invocation "literal" tree.head)

theorem parse_literalSource {source : String} {tree : Group} (h : parse source = .ok tree) :
    parse (literalSource source) = .ok (.nest "" tree.quoted (.text "")) := by
  obtain ⟨hfree, rfl⟩ := parse_eq_ok_iff.mp h
  have hquoted : tree.quoted.BraceFree :=
    hfree.setHead (Text.BraceFree.invocation (by decide) hfree.head)
  refine parse_eq_ok_iff.mpr ⟨⟨Text.braceFree_empty, hquoted, Text.braceFree_empty⟩, ?_⟩
  have hword : Text.invocation "literal" tree.head = "literal " ++ tree.head := rfl
  rw [innerSource, quoted, hword, innerSource_setHead_append, innerSource, literalSource,
    String.empty_append, String.append_empty]
  simp only [String.append_assoc]
  rfl

theorem translation_quoted (tree : Group) :
    tree.quoted.translation = .ok [.verbatim (Text.dropBlanks tree.innerSource)] := by
  have hname : Text.BlankFree "literal" := by decide
  have htoken : tree.quoted.token = "literal" := by
    rw [Group.token, quoted, head_setHead, Text.leadingToken_invocation hname]
  have hargument : Text.afterToken tree.quoted.head = Text.dropBlanks tree.head := by
    rw [quoted, head_setHead, Text.invocation, Text.afterToken_word_blank hname]
  have htrimmed : tree.quoted.setHead (Text.dropBlanks tree.head) = tree.trimmed := by
    cases tree <;> rfl
  rw [translation, Builtin.expand, htoken, hargument, ← innerSource_trimmed, ← htrimmed]
  rfl

end Group

theorem Compiler.outcome_compileSource_literal {compiler : Compiler}
    (h : FindsBuiltin compiler.macros) {source : String} (hsource : Text.Balanced source) :
    (compiler.compileSource (literalSource source)).outcome =
      .ok ⟨[.verbatim (Text.dropBlanks source)]⟩ := by
  obtain ⟨tree, hparse⟩ := Group.exists_parse_iff.mpr hsource
  obtain ⟨-, rfl⟩ := Group.parse_eq_ok_iff.mp hparse
  rw [outcome_compileSource h (Group.parse_literalSource hparse)]
  have hcontent : (Group.nest "" tree.quoted (.text "")).trimmed.content =
      .ok [.verbatim (Text.dropBlanks tree.innerSource)] := by
    rw [Group.trimmed_eq_self rfl, Group.content_nest, Group.translation_quoted]
    rfl
  rw [hcontent]
  rfl

theorem Program.outcome_render_verbatim (source : String) (functions : Table UserFunction)
    (data : Value) : (Program.render ⟨[.verbatim source]⟩ functions data).outcome = .ok source := by
  rw [outcome_render, Fragment.text, Fragment.emission, Fragment.emission, Emission.andThen_nothing,
    Instruction.emission]
  simp [Emission.result, Emission.piece, Except.map]

/-- A balanced template in the group `literal` compiles, and is rendered as it stands but for the blanks
in front of it, against any data and with any functions. -/
theorem render_literalSource {source : String} (hsource : Text.Balanced source) :
    (∃ program,
      ((Compiler.ofMacros .empty).compileSource (literalSource source)).outcome = .ok program ∧
      ∀ functions data,
        (program.render functions data).outcome = .ok (Text.dropBlanks source)) ∧
    ∀ layers options data, (∀ layer ∈ layers, layer.macros = .none) →
      Options.ofLayers layers = .ok options →
        (renderTemplate (.text (literalSource source)) data layers).outcome =
          .ok (Text.dropBlanks source) := by
  constructor
  · exact ⟨_, Compiler.outcome_compileSource_literal Compiler.findsBuiltin hsource,
      Program.outcome_render_verbatim _⟩
  · intro layers options data hlayers hoptions
    have hbuiltin := Compiler.findsBuiltin_ofMacros
      (Options.find?_macros_of_resolve hlayers Table.find?_empty hoptions)
    rw [outcome_renderTemplate hoptions, Compiler.outcome_compileSource_literal hbuiltin hsource]
    exact Program.outcome_render_verbatim _ _ _

/-- Of the blanks, only those in front of the unknown group are lost. -/
theorem render_literalSource_unknown :
    Text.Balanced " \n \x7bx  \x7b. y\x7d\x7d " ∧
    (renderTemplate (.text (literalSource " \n \x7bx  \x7b. y\x7d\x7d ")) .null [pathLayer]).outcome =
      .ok "\x7bx  \x7b. y\x7d\x7d " := by
  have hbalanced : Text.Balanced " \n \x7bx  \x7b. y\x7d\x7d " :=
    Group.exists_parse_iff.mp ⟨_, rfl⟩
  have hlayers : ∀ layer ∈ [pathLayer], layer.macros = .none := by
    intro layer hlayer
    rw [List.mem_singleton.mp hlayer]
    rfl
  exact ⟨hbalanced, (render_literalSource hbalanced).2 [pathLayer] _ .null hlayers rfl⟩

end BraceTemplate
