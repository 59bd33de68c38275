import BraceTemplate.Macro.Script
import BraceTemplate.Table.Basic

/-! # Built-in macros

The eight macros that every template may use. Each takes its argument, if it has one, from the leading
token of what is left of the head.
-/
namespace BraceTemplate.Builtin
open Script

def leaf (make : String → Instruction) : Macro := do
  let path ← token
  return .instruction (make path)

def block (make : String → Fragment → Instruction) : Macro := do
  let path ← token
  let body ← children
  return .instruction (make path body)

def inPlace : Macro := do
  let body ← children
  return .ofFragment body

/-- What is left of the group as it is written, not compiled. -/
def verbatim : Macro := do
  let group ← Script.group
  return .instruction (.verbatim group.innerSource)

def macros : List (String × Macro) := [
  (".", leaf .value),
  ("->", block .within),
  ("has", block .ifDefined),
  ("each", block .forEach),
  ("path", leaf .location),
  ("out", inPlace),
  ("literal", verbatim),
  ("fn", leaf .call)]

def label : String := "builtin"

def table : Table Macro := Table.ofEntries (macros.map fun m => (m.1, .usable label m.2))

end BraceTemplate.Builtin
