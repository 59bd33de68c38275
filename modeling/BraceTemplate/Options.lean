import BraceTemplate.Compiler
import BraceTemplate.Render.Executor

/-! # Options

Options hold the macros and the functions of the user. A table is accepted when each of its entries can
be used; layers of tables are put in front of each other, and the last layer that has a name decides.
-/
namespace BraceTemplate

/-- A table as it is handed in: entries by name, or some value in place of a table. -/
inductive TableSource (α : Type) where
  | entries (given : List (String × Entry α))
  | other (value : Value)

namespace TableSource

def none {α : Type} : TableSource α := entries []

/-- An empty map is a table without entries; no other value is a table. -/
def validate {α : Type} : TableSource α → Outcome (Table α)
  | entries given =>
    let table := Table.ofEntries given
    if table.allUsable then .ok table else .error .invalidOptions
  | other (.map []) => .ok .empty
  | other _ => .error .invalidOptions

end TableSource

structure Options where
  macros : Table Macro
  functions : Table UserFunction

structure Layer where
  macros : TableSource Macro
  functions : TableSource UserFunction

namespace Options

def empty : Options := ⟨.empty, .empty⟩

def merged (options : Options) (layer : Layer) : Outcome Options :=
  match layer.macros.validate, layer.functions.validate with
  | .ok macros, .ok functions =>
    .ok ⟨Table.layered macros options.macros, Table.layered functions options.functions⟩
  | .error failure, _ => .error failure
  | _, .error failure => .error failure

def resolve : Options → List Layer → Outcome Options
  | options, [] => .ok options
  | options, layer :: rest =>
    match options.merged layer with
    | .ok options => options.resolve rest
    | .error failure => .error failure

def ofLayers (layers : List Layer) : Outcome Options := empty.resolve layers

end Options

namespace Options

def compile (options : Options) (source : Value) : Traced Program :=
  (Compiler.ofMacros options.macros).compileValue source

def render (options : Options) (source data : Value) (limit : DigitLimit) : Traced String :=
  (options.compile source).andThen fun program => program.render options.functions data limit

end Options

def renderTemplate (source data : Value) (layers : List Layer)
    (limit : DigitLimit := .unlimited) : Traced String :=
  match Options.ofLayers layers with
  | .error failure => .fail failure
  | .ok options => options.render source data limit

/-- What may be given for the options: nothing, options that are made already, or a table for each of
their fields. -/
inductive OptionsSource where
  | nothing
  | ready (options : Options)
  | fields (layer : Layer)

namespace OptionsSource

def validate : OptionsSource → Outcome Options
  | nothing => .ok .empty
  | ready options => .ok options
  | fields layer => Options.empty.merged layer

def resolve (given : OptionsSource) (layers : List Layer) : Outcome Options :=
  match given.validate with
  | .ok options => options.resolve layers
  | .error failure => .error failure

def compile (given : OptionsSource) (source : Value) (macros : TableSource Macro) :
    Traced Program :=
  match given.resolve [⟨macros, .none⟩] with
  | .error failure => .fail failure
  | .ok options => options.compile source

def render (given : OptionsSource) (source data : Value) (loose : Layer)
    (limit : DigitLimit := .unlimited) : Traced String :=
  match given.resolve [loose] with
  | .error failure => .fail failure
  | .ok options => options.render source data limit

end OptionsSource
end BraceTemplate
