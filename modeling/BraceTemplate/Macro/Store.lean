import BraceTemplate.Macro.Script
import BraceTemplate.Table.Basic

/-! # Tables of macros that are shared

A store keeps tables of macros by their addresses. Registries and views refer to tables and do not hold
them, so all that refer to one table see what is written to it. A table that is put into the store gets a
new address.
-/
namespace BraceTemplate

structure Store where
  tables : List (Table Macro)

namespace Store

def tableAt (store : Store) (address : Nat) : Table Macro := store.tables.getD address .empty

def next (store : Store) : Nat := store.tables.length

def allocate (store : Store) (table : Table Macro) : Store := ⟨store.tables ++ [table]⟩

def write (store : Store) (address : Nat) (table : Table Macro) : Store :=
  ⟨store.tables.set address table⟩

@[simp] theorem next_allocate (store : Store) (table : Table Macro) :
    (store.allocate table).next = store.next + 1 := by
  simp [next, allocate]

@[simp] theorem next_write (store : Store) (address : Nat) (table : Table Macro) :
    (store.write address table).next = store.next := by
  simp [next, write]

@[simp] theorem tableAt_allocate_next (store : Store) (table : Table Macro) :
    (store.allocate table).tableAt store.next = table := by
  simp [tableAt, allocate, next]

theorem tableAt_allocate {store : Store} {address : Nat} (h : address < store.next)
    (table : Table Macro) : (store.allocate table).tableAt address = store.tableAt address := by
  rw [next] at h
  simp [tableAt, allocate, List.getElem?_append_left h]

theorem tableAt_write_self {store : Store} {address : Nat} (h : address < store.next)
    (table : Table Macro) : (store.write address table).tableAt address = table := by
  rw [next] at h
  simp [tableAt, write, h]

theorem tableAt_write_of_ne {store : Store} {address other : Nat} (h : address ≠ other)
    (table : Table Macro) : (store.write address table).tableAt other = store.tableAt other := by
  simp [tableAt, write, List.getElem?_set_ne h]

end Store

/-- Two tables, one in front of the other. -/
structure View where
  front : Nat
  back : Nat

/-- What a look-up through the view finds, as the two tables stand in the store. -/
def View.table (view : View) (store : Store) : Table Macro :=
  Table.layered (store.tableAt view.front) (store.tableAt view.back)

end BraceTemplate
