import BraceTemplate.Options
import BraceTemplate.Proofs.Compile.Selection
import BraceTemplate.Proofs.Render.Answers

/-! # Layers of options

Options that are given, loose tables and further layers make up a stack, the given ones behind. Resolving
merges the macros of the stack, and its functions, each for themselves. Compiling and rendering with what
comes of it go by the last layer that has a name, as they do with the tables that are merged by hand.
-/
namespace BraceTemplate

namespace TableSource
variable {α : Type}

/-- The table that is meant. Nothing that stands in place of a table has entries. -/
def table : TableSource α → Table α
  | entries given => .ofEntries given
  | other _ => .empty

/-- Whether all names of a table are bound to something that can be called. An empty map stands for the
table without names. -/
def Valid : TableSource α → Prop
  | entries given => (Table.ofEntries given).Usable
  | other value => value = .map []

/-- What the validation of tables is relied on for. It lets valid tables pass as they are, and no others. -/
structure Validates (validate : TableSource α → Outcome (Table α)) : Prop where
  passes : ∀ {source}, source.Valid → validate source = .ok source.table
  refuses : ∀ {source}, ¬ source.Valid → validate source = .error .invalidOptions

theorem validates : Validates (@validate α) where
  passes {source} h := by
    cases source with
    | entries given => exact if_pos (Table.allUsable_iff.mpr h)
    | other value =>
      cases h
      rfl
  refuses {source} h := by
    cases source with
    | entries given => exact if_neg (mt Table.allUsable_iff.mp h)
    | other value =>
      cases value with
      | map entries =>
        cases entries with
        | nil => exact absurd rfl h
        | cons entry rest => rfl
      | _ => rfl

theorem Valid.usable {source : TableSource α} (h : source.Valid) : source.table.Usable := by
  cases source with
  | entries given => exact h
  | other value => exact fun name entry hfind => by simp [TableSource.table] at hfind

theorem valid_none : (TableSource.none : TableSource α).Valid := fun name entry hfind => by
  simp [Table.ofEntries] at hfind

end TableSource

def Layer.tables (layer : Layer) : Options := ⟨layer.macros.table, layer.functions.table⟩

structure Layer.Valid (layer : Layer) : Prop where
  macros : layer.macros.Valid
  functions : layer.functions.Valid

namespace Options

structure Usable (options : Options) : Prop where
  macros : options.macros.Usable
  functions : options.functions.Usable

/-- Whether the macros merge those of the stack and nothing else, and the functions those of the stack. -/
structure Merges (options : Options) (stack : List Options) : Prop where
  macros : options.macros.Merges (stack.map Options.macros)
  functions : options.functions.Merges (stack.map Options.functions)

theorem merges_empty : empty.Merges [] := ⟨Table.merges_empty, Table.merges_empty⟩

theorem merges_self (options : Options) : options.Merges [options] :=
  ⟨Table.merges_self _, Table.merges_self _⟩

section Layering
variable {options : Options} {stack : List Options}

theorem Merges.exists_merged (h : options.Merges stack) {layer : Layer} (hlayer : layer.Valid) :
    ∃ merged, options.merged layer = .ok merged ∧ merged.Merges (stack ++ [layer.tables]) := by
  have hmacros := TableSource.validates.passes hlayer.macros
  have hfunctions := TableSource.validates.passes hlayer.functions
  refine ⟨⟨Table.layered layer.macros.table options.macros,
    Table.layered layer.functions.table options.functions⟩, by rw [merged, hmacros, hfunctions], ?_⟩
  constructor
  · rw [List.map_append]
    exact h.macros.layered _
  · rw [List.map_append]
    exact h.functions.layered _

theorem Merges.exists_resolve (h : options.Merges stack) {layers : List Layer}
    (hlayers : ∀ layer ∈ layers, layer.Valid) :
    ∃ resolved, options.resolve layers = .ok resolved ∧
      resolved.Merges (stack ++ layers.map Layer.tables) := by
  induction layers generalizing options stack with
  | nil => exact ⟨options, rfl, by simpa using h⟩
  | cons layer layers ih =>
    obtain ⟨merged, hmerged, hfront⟩ := h.exists_merged (hlayers layer List.mem_cons_self)
    obtain ⟨resolved, hresolved, hstack⟩ := ih hfront fun next hnext =>
      hlayers next (List.mem_cons_of_mem _ hnext)
    refine ⟨resolved, ?_, ?_⟩
    · rw [resolve, hmerged]
      exact hresolved
    · rwa [List.append_assoc] at hstack

end Layering

/-- The tables of a stack, each put together from all its entries at once. -/
def merge (stack : List Options) : Options :=
  ⟨Table.merge (stack.map Options.macros), Table.merge (stack.map Options.functions)⟩

theorem merges_merge (stack : List Options) : (merge stack).Merges stack :=
  ⟨Table.merges_merge _, Table.merges_merge _⟩

/-- Whether compiling and rendering go by a stack. Its macros, and the built-in ones, say how a group is
compiled, and its functions how a call is answered. The outcome is that of compiling with the merged
macros and then rendering with the merged functions. -/
structure GoesBy (stack : List Options) (compile : Value → Traced Program)
    (render : Value → Value → Traced String) : Prop where
  selects : (Compiler.ofMacros (merge stack).macros).SelectsFrom (stack.map Options.macros)
  answers : (merge stack).functions.AnswersFrom (stack.map Options.functions)
  compile_eq : ∀ source,
    compile source = (Compiler.ofMacros (merge stack).macros).compileValue source
  render_eq : ∀ source data,
    render source data = ((Compiler.ofMacros (merge stack).macros).compileValue source).andThen
      fun program => program.render (merge stack).functions data

/-- It does not matter how the tables that compile and render come to merge the stack. -/
theorem goesBy_of_merges {stack : List Options} (husable : ∀ options ∈ stack, options.Usable)
    {compile : Value → Traced Program} {render : Value → Value → Traced String}
    (hcompile : ∀ source, ∃ options : Options, options.macros.Merges (stack.map Options.macros) ∧
      compile source = (Compiler.ofMacros options.macros).compileValue source)
    (hrender : ∀ source data, ∃ options : Options, options.Merges stack ∧
      render source data = ((Compiler.ofMacros options.macros).compileValue source).andThen
        fun program => program.render options.functions data) : GoesBy stack compile render := by
  have hmacros : ∀ table ∈ stack.map Options.macros, table.Usable :=
    List.forall_mem_map.mpr fun options hoptions => (husable options hoptions).macros
  have hfunctions : ∀ table ∈ stack.map Options.functions, table.Usable :=
    List.forall_mem_map.mpr fun options hoptions => (husable options hoptions).functions
  have hselects {macros : Table Macro} (h : macros.Merges (stack.map Options.macros)) :=
    Compiler.selectsFrom_ofMacros h hmacros
  have hanswers {functions : Table UserFunction} (h : functions.Merges (stack.map Options.functions)) :=
    h.answersFrom hfunctions
  have hmerge := merges_merge stack
  constructor
  · exact hselects hmerge.macros
  · exact hanswers hmerge.functions
  · intro source
    obtain ⟨options, hoptions, hsource⟩ := hcompile source
    rw [hsource]
    exact (hselects hoptions).compileValue_eq (hselects hmerge.macros) rfl source
  · intro source data
    obtain ⟨options, hoptions, hsource⟩ := hrender source data
    rw [hsource, (hselects hoptions.macros).compileValue_eq (hselects hmerge.macros) rfl]
    apply congrArg
    funext program
    exact (hanswers hoptions.functions).render_eq (hanswers hmerge.functions) program data

end Options

namespace OptionsSource

def Valid : OptionsSource → Prop
  | nothing => True
  | ready options => options.Usable
  | fields layer => layer.Valid

/-- What lies behind all layers. -/
def stack : OptionsSource → List Options
  | nothing => []
  | ready options => [options]
  | fields layer => [layer.tables]

section Resolving
variable {given : OptionsSource}

theorem Valid.exists_validate (h : given.Valid) :
    ∃ options, given.validate = .ok options ∧ options.Merges given.stack := by
  cases given with
  | nothing => exact ⟨.empty, rfl, Options.merges_empty⟩
  | ready options => exact ⟨options, rfl, options.merges_self⟩
  | fields layer => exact Options.merges_empty.exists_merged h

theorem Valid.exists_resolve (h : given.Valid) {layers : List Layer}
    (hlayers : ∀ layer ∈ layers, layer.Valid) :
    ∃ options, given.resolve layers = .ok options ∧
      options.Merges (given.stack ++ layers.map Layer.tables) := by
  obtain ⟨options, hoptions, hstack⟩ := h.exists_validate
  rw [resolve, hoptions]
  exact hstack.exists_resolve hlayers

theorem Valid.usable (h : given.Valid) : ∀ options ∈ given.stack, options.Usable := by
  cases given with
  | nothing => exact List.forall_mem_nil _
  | ready options => exact List.forall_mem_singleton.mpr h
  | fields layer => exact List.forall_mem_singleton.mpr ⟨h.macros.usable, h.functions.usable⟩

theorem Valid.usable_stack (h : given.Valid) {layers : List Layer}
    (hlayers : ∀ layer ∈ layers, layer.Valid) :
    ∀ options ∈ given.stack ++ layers.map Layer.tables, options.Usable := by
  refine List.forall_mem_append.mpr ⟨h.usable, List.forall_mem_map.mpr fun layer hlayer => ?_⟩
  exact ⟨(hlayers layer hlayer).macros.usable, (hlayers layer hlayer).functions.usable⟩

end Resolving

/-- In what is resolved the last layer that has a name decides, for macros and for functions, each for
themselves. Compiling and rendering go by the layers, both with the options and the loose tables that are
handed in, and with the options that further layers are put in front of. -/
theorem last_layer_decides {given : OptionsSource} (hgiven : given.Valid) {loose : Layer}
    (hloose : loose.Valid) {layers : List Layer} (hlayers : ∀ layer ∈ layers, layer.Valid) :
    Options.GoesBy (given.stack ++ [loose.tables]) (given.compile · loose.macros)
      (given.render · · loose) ∧
    ∃ options, given.resolve (loose :: layers) = .ok options ∧
      options.Merges (given.stack ++ (loose :: layers).map Layer.tables) ∧
      Options.GoesBy (given.stack ++ (loose :: layers).map Layer.tables)
        ((ready options).compile · .none) ((ready options).render · · ⟨.none, .none⟩) := by
  have hsingle : ∀ layer ∈ [loose], layer.Valid := List.forall_mem_singleton.mpr hloose
  have hall : ∀ layer ∈ loose :: layers, layer.Valid := List.forall_mem_cons.mpr ⟨hloose, hlayers⟩
  constructor
  · apply Options.goesBy_of_merges (hgiven.usable_stack hsingle)
    · intro source
      -- only the macros are handed in, and only they matter
      have hmacros : ∀ layer ∈ [Layer.mk loose.macros .none], layer.Valid :=
        List.forall_mem_singleton.mpr ⟨hloose.macros, TableSource.valid_none⟩
      obtain ⟨options, hoptions, hstack⟩ := hgiven.exists_resolve hmacros
      refine ⟨options, ?_, by rw [compile, hoptions]; rfl⟩
      simpa [Layer.tables] using hstack.macros
    · intro source data
      obtain ⟨options, hoptions, hstack⟩ := hgiven.exists_resolve hsingle
      exact ⟨options, hstack, by rw [render, hoptions]; rfl⟩
  · obtain ⟨options, hoptions, hstack⟩ := hgiven.exists_resolve hall
    -- the empty tables that are handed in with the options come in front, and decide nothing
    have hmacros := hstack.macros.layered_empty
    have hfunctions := hstack.functions.layered_empty
    refine ⟨options, hoptions, hstack, ?_⟩
    apply Options.goesBy_of_merges (hgiven.usable_stack hall)
    · intro source
      exact ⟨⟨Table.layered .empty options.macros, options.functions⟩, hmacros, rfl⟩
    · intro source data
      exact ⟨⟨Table.layered .empty options.macros, Table.layered .empty options.functions⟩,
        ⟨hmacros, hfunctions⟩, rfl⟩

def saying (text : String) : Entry Macro := .usable text (return .text text)

def answering (text : String) : Entry UserFunction := .usable text fun _ _ => ⟨[], .ok (.text text)⟩

def bracketing : Entry Macro := .usable "brackets" do
  let body ← Script.children
  return .ofFragment (.literal "<" :: body ++ [.literal ">"])

def givenFields : Layer :=
  ⟨.entries [("a", saying "A"), ("b", saying "B")], .entries [("f", answering "F")]⟩

def looseTables : Layer :=
  ⟨.entries [("b", saying "C"), ("has", saying "D"), ("out", bracketing)], .none⟩

def frontLayer : Layer := ⟨.none, .entries [("f", answering "G")]⟩

def overlappingSource : Value := .text "\x7ba\x7d\x7bb\x7d\x7bhas x y\x7d\x7bfn f\x7d\x7b. x\x7d"

/-- The loose tables bind a name anew, and hide a built-in macro and the implicit one. The function of the
layer in front answers only where the options are used that it is part of. -/
theorem last_layer_decides_overlapping :
    (fields givenFields).Valid ∧ looseTables.Valid ∧ (∀ layer ∈ [frontLayer], layer.Valid) ∧
    ((fields givenFields).render overlappingSource (.map [(.text "x", .text "1")])
      looseTables).outcome = .ok "<ACDF1>" ∧
    ∃ options, (fields givenFields).resolve [looseTables, frontLayer] = .ok options ∧
      options.macros.find? "b" = some (saying "C") ∧
      ((ready options).render overlappingSource (.map [(.text "x", .text "1")])
        ⟨.none, .none⟩).outcome = .ok "<ACDG1>" := by
  have hgiven : (fields givenFields).Valid :=
    ⟨Table.allUsable_iff.mp (by rfl), Table.allUsable_iff.mp (by rfl)⟩
  have hloose : looseTables.Valid := ⟨Table.allUsable_iff.mp (by rfl), TableSource.valid_none⟩
  have hfront : ∀ layer ∈ [frontLayer], layer.Valid :=
    List.forall_mem_singleton.mpr ⟨TableSource.valid_none, Table.allUsable_iff.mp (by rfl)⟩
  obtain ⟨hdirect, options, hoptions, hstack, hgoes⟩ := last_layer_decides hgiven hloose hfront
  -- the layer in front has no macros, so that the same program comes of both stacks
  have hcompile {stack : List Options}
      (h : stack = (fields givenFields).stack ++ [looseTables.tables] ∨
        stack = (fields givenFields).stack ++ [looseTables, frontLayer].map Layer.tables) :
      ((Compiler.ofMacros (Options.merge stack).macros).compileValue overlappingSource).outcome =
        .ok ⟨[.literal "<", .literal "A", .literal "C", .literal "D", .call "f", .value "x",
          .literal ">"]⟩ := by
    rcases h with rfl | rfl <;> rfl
  refine ⟨hgiven, hloose, hfront, ?_, options, hoptions, ?_, ?_⟩
  · rw [hdirect.render_eq, Traced.outcome_andThen (hcompile (.inl rfl)), Program.outcome_render]
    rfl
  · rw [hstack.macros.find?_eq]
    have hhides : ∀ table ∈ [frontLayer.macros.table], "b" ∉ table.names :=
      List.forall_mem_singleton.mpr (by decide)
    exact ⟨[givenFields.macros.table], looseTables.macros.table, _, rfl, by rfl, hhides⟩
  · rw [hgoes.render_eq, Traced.outcome_andThen (hcompile (.inr rfl)), Program.outcome_render]
    rfl

end OptionsSource
end BraceTemplate
