import BraceTemplate.Options
import BraceTemplate.Proofs.Compile.Translation
import BraceTemplate.Proofs.Render.Emission
import BraceTemplate.Proofs.Tree.Reading

/-! # Templates one behind the other

Where two templates meet, the last text of the first and the first text of the second become one text,
hence one instruction instead of two. It emits what the two emit. Everything else of the two programs
stays as it is, and the second runs at the root path again. Only blanks at the start of the second
template would be lost when it stands alone.
-/
namespace BraceTemplate

namespace Group

theorem trimmed_concat (first : Group) {next : Group} (h : Text.startsBlank next.head = false) :
    (first.concat next).trimmed = first.trimmed.concat next := by
  cases first with
  | nest head inner rest => rfl
  | text head =>
    rw [concat, trimmed, head_setHead, Text.dropBlanks_append head h]
    cases next <;> rfl

theorem trimmed_eq_self {group : Group} (h : Text.startsBlank group.head = false) :
    group.trimmed = group := by
  rw [trimmed, Text.dropBlanks_eq_self h, setHead_head]

end Group

namespace Fragment

@[simp] theorem text_literals (functions : Table UserFunction) (data : Value)
    (head path : String) :
    Fragment.text functions data (Script.literals head) path = .ok head := by
  unfold Script.literals
  split
  · rename_i hempty
    rw [hempty]
    rfl
  · rw [Fragment.text, Fragment.emission, Fragment.emission, Emission.andThen_nothing,
      Instruction.emission]
    simp [Emission.result, Emission.piece, Except.map]

/-- Whether the fragment emits what two others emit, one behind the other, whenever they succeed. -/
def Joins (joined first next : Fragment) : Prop :=
  ∀ functions data path x y, Fragment.text functions data first path = .ok x →
    Fragment.text functions data next path = .ok y →
      Fragment.text functions data joined path = .ok (x ++ y)

theorem joins_literals (head head' : String) (rest : Fragment) :
    Joins (Script.literals (head ++ head') ++ rest) (Script.literals head)
      (Script.literals head' ++ rest) := by
  intro functions data path x y hx hy
  rw [text_literals] at hx
  cases hx
  obtain ⟨y', z, hy', hz, rfl⟩ := (Fragment.text_append_iff functions data).mp hy
  rw [text_literals] at hy'
  cases hy'
  refine (Fragment.text_append_iff functions data).mpr ⟨_, z, text_literals _ _ _ _, hz, ?_⟩
  rw [String.append_assoc]

theorem Joins.append {joined first next : Fragment} (h : Joins joined first next)
    (front : Fragment) : Joins (front ++ joined) (front ++ first) next := by
  intro functions data path x y hx hy
  obtain ⟨z, x', hz, hx', rfl⟩ := (Fragment.text_append_iff functions data).mp hx
  refine (Fragment.text_append_iff functions data).mpr ⟨z, x' ++ y, hz, ?_, ?_⟩
  · exact h functions data path x' y hx' hy
  · rw [String.append_assoc]

end Fragment

namespace Group

theorem exists_content_concat {first next : Group} {f g : Fragment} (hf : first.content = .ok f)
    (hg : next.content = .ok g) :
    ∃ joined, (first.concat next).content = .ok joined ∧ Fragment.Joins joined f g := by
  induction first generalizing f with
  | text head =>
    rw [content_text] at hf
    cases hf
    obtain ⟨parts, hparts, rfl⟩ := Outcome.map_eq_ok_iff.mp hg
    refine ⟨Script.literals (head ++ next.head) ++ parts, ?_, Fragment.joins_literals _ _ _⟩
    rw [concat, content, parts_setHead, head_setHead, hparts]
    rfl
  | nest head inner rest _ ih =>
    rw [content_nest] at hf
    obtain ⟨fragment, hinner, hf⟩ := Outcome.bind_eq_ok_iff.mp hf
    obtain ⟨others, hrest, rfl⟩ := Outcome.map_eq_ok_iff.mp hf
    obtain ⟨joined, hjoined, hjoins⟩ := ih hrest
    refine ⟨Script.literals head ++ fragment ++ joined, ?_, hjoins.append _⟩
    rw [concat, content_nest, hinner, hjoined]
    rfl

end Group

namespace Options

theorem ofLayers_nil : ofLayers [] = .ok .empty := rfl

theorem validate_none {α : Type} : (TableSource.none : TableSource α).validate = .ok .empty := rfl

theorem find?_macros_of_resolve {layers : List Layer} {options resolved : Options}
    (hlayers : ∀ layer ∈ layers, layer.macros = .none)
    (hoptions : ∀ name, options.macros.find? name = none)
    (h : options.resolve layers = .ok resolved) (name : String) :
    resolved.macros.find? name = none := by
  induction layers generalizing options with
  | nil =>
    cases h
    exact hoptions name
  | cons layer layers ih =>
    have hlayer := hlayers layer List.mem_cons_self
    rw [resolve, merged, hlayer, validate_none] at h
    cases hv : layer.functions.validate with
    | error failure => simp [hv] at h
    | ok functions =>
      simp only [hv] at h
      refine ih (fun l hl => hlayers l (List.mem_cons_of_mem _ hl)) (fun key => ?_) h
      rw [Table.find?_layered, Table.find?_empty, hoptions]
      rfl

end Options

theorem outcome_renderTemplate {layers : List Layer} {options : Options} {source : String}
    {data : Value} (h : Options.ofLayers layers = .ok options) :
    (renderTemplate (.text source) data layers).outcome =
      ((Compiler.ofMacros options.macros).compileSource source).outcome.bind fun program =>
        (program.render options.functions data).outcome := by
  rw [renderTemplate, h]
  simp only [Options.render, Options.compile, Compiler.compileValue, Traced.andThen]
  cases ((Compiler.ofMacros options.macros).compileSource source).outcome <;> rfl

theorem renderTemplate_eq_ok_iff {layers : List Layer}
    (hlayers : ∀ layer ∈ layers, layer.macros = .none) {options : Options}
    (hoptions : Options.ofLayers layers = .ok options) (source text : String) (data : Value) :
    (renderTemplate (.text source) data layers).outcome = .ok text ↔
      ∃ tree body, Group.parse source = .ok tree ∧ tree.trimmed.content = .ok body ∧
        Fragment.text options.functions (Context.start data).data body "" = .ok text := by
  have hbuiltin := Compiler.findsBuiltin_ofMacros
    (Options.find?_macros_of_resolve hlayers Table.find?_empty hoptions)
  rw [outcome_renderTemplate hoptions, Outcome.bind_eq_ok_iff]
  constructor
  · rintro ⟨program, hprogram, htext⟩
    obtain ⟨tree, hparse⟩ := Compiler.exists_parse_of_compileSource hprogram
    rw [Compiler.outcome_compileSource hbuiltin hparse] at hprogram
    obtain ⟨body, hbody, rfl⟩ := Outcome.map_eq_ok_iff.mp hprogram
    rw [Program.outcome_render] at htext
    exact ⟨tree, body, hparse, hbody, htext⟩
  · rintro ⟨tree, body, hparse, hbody, htext⟩
    refine ⟨⟨body⟩, ?_, ?_⟩
    · rw [Compiler.outcome_compileSource hbuiltin hparse, hbody]
      rfl
    · rw [Program.outcome_render]
      exact htext

/-- Without user macros, templates one behind the other render as their texts one behind the other. -/
theorem renderTemplate_append {layers : List Layer}
    (hlayers : ∀ layer ∈ layers, layer.macros = .none) {data : Value} {a b x y : String}
    (ha : (renderTemplate (.text a) data layers).outcome = .ok x)
    (hb : (renderTemplate (.text b) data layers).outcome = .ok y)
    (hblank : Text.startsBlank b = false) :
    (renderTemplate (.text (a ++ b)) data layers).outcome = .ok (x ++ y) := by
  cases hoptions : Options.ofLayers layers with
  | error failure => simp [renderTemplate, hoptions, Traced.fail] at ha
  | ok options =>
    have hsteps (source text : String) := renderTemplate_eq_ok_iff hlayers hoptions source text data
    obtain ⟨s, f, hs, hf, hx⟩ := (hsteps a x).mp ha
    obtain ⟨t, g, ht, hg, hy⟩ := (hsteps b y).mp hb
    have hhead : Text.startsBlank t.head = false := by
      rw [← Group.startsBlank_innerSource, (Group.parse_eq_ok_iff.mp ht).2]
      exact hblank
    rw [Group.trimmed_eq_self hhead] at hg
    obtain ⟨joined, hjoined, hjoins⟩ := Group.exists_content_concat hf hg
    rw [← Group.trimmed_concat s hhead] at hjoined
    exact (hsteps (a ++ b) (x ++ y)).mpr
      ⟨s.concat t, joined, Group.parse_append hs ht, hjoined, hjoins _ _ _ x y hx hy⟩

/-- A layer with a function that answers with the path it is called at. -/
def pathLayer : Layer :=
  ⟨.none, .entries [("f", .usable "f" fun path _ => ⟨[], .ok (.text path)⟩)]⟩

/-- The blank between the groups and the letter behind it are one text, and the second call is made at
the root again. -/
theorem renderTemplate_append_calls :
    (∀ layer ∈ [pathLayer], layer.macros = .none) ∧
    (renderTemplate (.text " \x7b-> n \x7bfn f\x7d\x7d ") (.map []) [pathLayer]).outcome = .ok "n " ∧
    (renderTemplate (.text "x\x7bfn f\x7d") (.map []) [pathLayer]).outcome = .ok "x" ∧
    Text.startsBlank "x\x7bfn f\x7d" = false ∧
    (renderTemplate (.text (" \x7b-> n \x7bfn f\x7d\x7d " ++ "x\x7bfn f\x7d")) (.map [])
      [pathLayer]).outcome = .ok ("n " ++ "x") := by
  have hlayers : ∀ layer ∈ [pathLayer], layer.macros = .none := by
    intro layer hlayer
    rw [List.mem_singleton.mp hlayer]
    rfl
  have hoptions : Options.ofLayers [pathLayer] =
      .ok ⟨.layered .empty .empty,
        .layered (.ofEntries [("f", .usable "f" fun path _ => ⟨[], .ok (.text path)⟩)]) .empty⟩ := by
    rfl
  have ha : (renderTemplate (.text " \x7b-> n \x7bfn f\x7d\x7d ") (.map [])
      [pathLayer]).outcome = .ok "n " :=
    (renderTemplate_eq_ok_iff hlayers hoptions _ _ _).mpr
      ⟨.nest " " (.nest "-> n " (.text "fn f") (.text "")) (.text " "),
        [.within "n" [.call "f"], .literal " "], by rfl, by rfl, by rfl⟩
  have hb : (renderTemplate (.text "x\x7bfn f\x7d") (.map []) [pathLayer]).outcome = .ok "x" :=
    (renderTemplate_eq_ok_iff hlayers hoptions _ _ _).mpr
      ⟨.nest "x" (.text "fn f") (.text ""), [.literal "x", .call "f"], by rfl, by rfl, by rfl⟩
  have hblank : Text.startsBlank "x\x7bfn f\x7d" = false := by decide
  exact ⟨hlayers, ha, hb, hblank, renderTemplate_append hlayers ha hb hblank⟩

end BraceTemplate
