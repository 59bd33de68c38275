import BraceTemplate.Compiler
import BraceTemplate.Macro.Store

/-! # Registries side by side

A shelf keeps registries that refer to tables in one store, and one of them is current. A new registry
gets a table of its own, a copy of the one that it is made from. A look-up puts the overrides of the
caller into the store and looks through a view, which has them in front of the table of the registry.
-/
namespace BraceTemplate

structure Shelf where
  store : Store
  /-- The addresses of the tables of the registries, in the order in which these were made. -/
  addresses : List Nat
  /-- The index of the current registry. -/
  current : Nat

namespace Shelf

inductive Step where
  | register (name : String) (entry : Entry Macro)
  | copy
  | switch (index : Nat)
  | has (name : String)
  | lookup (name : String) (overrides : Table Macro)
  | layered (overrides : Table Macro)
  | compile (overrides : Table Macro) (source : Value)

inductive Reply where
  | registered (event : Event)
  | index (index : Nat)
  | noSuchRegistry
  | flag (found : Bool)
  | entry (entry : Option (Entry Macro))
  | table (table : Table Macro)
  | program (program : Traced Program)

def addressAt (shelf : Shelf) (index : Nat) : Nat := shelf.addresses.getD index 0

def registryAt (shelf : Shelf) (index : Nat) : Registry :=
  ⟨shelf.store.tableAt (shelf.addressAt index)⟩

def registry (shelf : Shelf) : Registry := shelf.registryAt shelf.current

/-- Makes a registry from the table at an address, and makes it current. -/
def make (shelf : Shelf) (source : Nat) : Shelf where
  store := shelf.store.allocate (shelf.store.tableAt source)
  addresses := shelf.addresses ++ [shelf.store.next]
  current := shelf.addresses.length

/-- The address of the table that a caller gives for the first registry. -/
def givenAddress : Nat := 0

/-- One registry, made from a table of the caller. -/
def start (given : Table Macro) : Shelf := make ⟨⟨[given]⟩, [], 0⟩ givenAddress

/-- Looks at the current registry through a view with the overrides in front. -/
def look (shelf : Shelf) (overrides : Table Macro) (reply : Table Macro → Reply) : Shelf × Reply :=
  let store := shelf.store.allocate overrides
  let view : View := ⟨shelf.store.next, shelf.addressAt shelf.current⟩
  ({ shelf with store := store }, reply (view.table store))

def perform (shelf : Shelf) : Step → Shelf × Reply
  | .register name entry =>
    let registered := shelf.registry.register name entry
    ({ shelf with store := shelf.store.write (shelf.addressAt shelf.current) registered.1.macros },
      .registered registered.2)
  | .copy => (shelf.make (shelf.addressAt shelf.current), .index shelf.addresses.length)
  | .switch index =>
    if index < shelf.addresses.length then ({ shelf with current := index }, .index index)
    else (shelf, .noSuchRegistry)
  | .has name => (shelf, .flag (shelf.registry.has name))
  | .lookup name overrides => shelf.look overrides fun table => .entry (table.find? name)
  | .layered overrides => shelf.look overrides .table
  | .compile overrides source => shelf.look overrides fun table =>
    .program ((Compiler.mk table Compiler.defaultReserve).compileValue source)

def after (shelf : Shelf) (steps : List Step) : Shelf :=
  steps.foldl (fun shelf step => (shelf.perform step).1) shelf

@[simp] theorem after_nil (shelf : Shelf) : shelf.after [] = shelf := rfl

@[simp] theorem after_cons (shelf : Shelf) (step : Step) (steps : List Step) :
    shelf.after (step :: steps) = (shelf.perform step).1.after steps := rfl

theorem after_append (shelf : Shelf) (steps others : List Step) :
    shelf.after (steps ++ others) = (shelf.after steps).after others := List.foldl_append

end Shelf
end BraceTemplate
