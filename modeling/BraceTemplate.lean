import BraceTemplate.Compiler
import BraceTemplate.Decimal.Binary64
import BraceTemplate.Decimal.Layout
import BraceTemplate.Decimal.Range
import BraceTemplate.Decimal.Shortest
import BraceTemplate.Failure
import BraceTemplate.Files.Directory
import BraceTemplate.Files.Loader
import BraceTemplate.Json.Basic
import BraceTemplate.Json.Quoted
import BraceTemplate.Json.Reader
import BraceTemplate.Json.Writer
import BraceTemplate.Log
import BraceTemplate.Macro.Builtin
import BraceTemplate.Macro.Registry
import BraceTemplate.Macro.Script
import BraceTemplate.Options
import BraceTemplate.Path.Basic
import BraceTemplate.Path.Resolve
import BraceTemplate.Program.Basic
import BraceTemplate.Program.Decode
import BraceTemplate.Program.Encode
import BraceTemplate.Program.Schema
import BraceTemplate.Program.Walk
import BraceTemplate.Proofs.Text.Words
import BraceTemplate.Proofs.Tree.Concat
import BraceTemplate.Proofs.Tree.Reading
import BraceTemplate.Render.Context
import BraceTemplate.Render.Executor
import BraceTemplate.Render.Scopes
import BraceTemplate.Table.Basic
import BraceTemplate.Text.Blank
import BraceTemplate.Text.DecimalDigit
import BraceTemplate.Text.DigitLimit
import BraceTemplate.Text.Pieces
import BraceTemplate.Text.Printable
import BraceTemplate.Text.Quoted
import BraceTemplate.Text.Utf8
import BraceTemplate.Traced
import BraceTemplate.Tree.Basic
import BraceTemplate.Tree.Parser
import BraceTemplate.Value.Basic
import BraceTemplate.Value.Printer
import BraceTemplate.Workbench
import BraceTemplate.Proofs.Compile.Translation
import BraceTemplate.Proofs.Tree.Balance
import BraceTemplate.Proofs.Tree.Normal
import BraceTemplate.Proofs.Compile.Image
import BraceTemplate.Proofs.Render.Emission
import BraceTemplate.Proofs.Render.Relocation
import BraceTemplate.Proofs.Render.Concatenation
import BraceTemplate.Proofs.Render.Scoping
import BraceTemplate.Proofs.Tree.Nested
import BraceTemplate.Proofs.Compile.Outcome
import BraceTemplate.Proofs.Text.Utf8
import BraceTemplate.Proofs.Json.Spelling
import BraceTemplate.Proofs.Json.Written
import BraceTemplate.Proofs.Program.RoundTrip
import BraceTemplate.Proofs.Path.Composition
import BraceTemplate.Proofs.Render.Actions
import BraceTemplate.Proofs.Render.Unrolling
import BraceTemplate.Proofs.Render.Respelling
import BraceTemplate.Proofs.Compile.Extension
import BraceTemplate.Proofs.Render.Demands
import BraceTemplate.Proofs.Render.Failures
import BraceTemplate.Proofs.Tree.Fault
import BraceTemplate.Proofs.Path.Entries
import BraceTemplate.Proofs.Render.Loops
import BraceTemplate.Proofs.Render.Fusion
import BraceTemplate.Proofs.Compile.Arguments
import BraceTemplate.Proofs.Compile.Frame
import BraceTemplate.Proofs.Render.Verbatim
import BraceTemplate.Proofs.Tree.Shifted
import BraceTemplate.Proofs.Compile.Spacing
import BraceTemplate.Proofs.Program.Presentation
import BraceTemplate.Proofs.Json.Source
import BraceTemplate.Proofs.Program.Damage
import BraceTemplate.Proofs.Program.Laws
import BraceTemplate.Proofs.Value.Visible
import BraceTemplate.Proofs.Render.Privacy
import BraceTemplate.Proofs.Program.Listing
import BraceTemplate.Proofs.Compile.Dispatching
import BraceTemplate.Proofs.Render.Nesting
import BraceTemplate.Proofs.Table.Names
import BraceTemplate.Proofs.Macro.Registries
import BraceTemplate.Macro.Store
import BraceTemplate.Shelf
import BraceTemplate.Proofs.Compile.Selection
import BraceTemplate.Proofs.Options.Precedence
