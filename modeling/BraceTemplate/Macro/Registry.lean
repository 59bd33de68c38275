import BraceTemplate.Log
import BraceTemplate.Macro.Builtin

/-! # Registries of macros

A registry holds macros by name. A look-up puts a table of the caller in front of the registry and leaves
the registry as it is.
-/
namespace BraceTemplate

structure Registry where
  macros : Table Macro

namespace Registry

def builtin : Registry := ⟨Builtin.table⟩

def register (registry : Registry) (name : String) (entry : Entry Macro) : Registry × Event :=
  (⟨registry.macros.insert name entry⟩, .registered name)

def has (registry : Registry) (name : String) : Bool := registry.macros.has name

def layered (registry : Registry) (overrides : Table Macro) : Table Macro :=
  Table.layered overrides registry.macros

def lookup (registry : Registry) (name : String) (overrides : Table Macro) :
    Option (Entry Macro) := (registry.layered overrides).find? name

def registeredNames (registry : Registry) : List String := registry.macros.names

theorem lookup_eq (registry : Registry) (name : String) (overrides : Table Macro) :
    registry.lookup name overrides = (overrides.find? name).or (registry.macros.find? name) :=
  Table.find?_layered _ _ _

end Registry

end BraceTemplate
