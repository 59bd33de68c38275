import Std.Data.TreeMap

/-! # Tables of named entries

A table binds names to entries and lists its names by code point. A name may be bound to an empty
entry, which hides the name in tables behind, or to something that cannot be used at all.
-/
namespace BraceTemplate

inductive Entry (α : Type) where
  | empty
  /-- Something that is there but cannot be called. -/
  | inert (label : String)
  | usable (label : String) (item : α)

namespace Entry

def label? {α : Type} : Entry α → Option String
  | empty => none
  | inert label => some label
  | usable label _ => some label

def isUsable {α : Type} : Entry α → Bool
  | usable _ _ => true
  | _ => false

end Entry

structure Table (α : Type) where
  bindings : Std.TreeMap String (Entry α)

namespace Table
variable {α : Type}

def empty : Table α := ⟨∅⟩

def find? (table : Table α) (name : String) : Option (Entry α) := table.bindings[name]?

def has (table : Table α) (name : String) : Bool := table.bindings.contains name

/-- The names in increasing order of their code points. -/
def names (table : Table α) : List String := table.bindings.keys

def insert (table : Table α) (name : String) (entry : Entry α) : Table α :=
  ⟨table.bindings.insert name entry⟩

/-- The last of several bindings of a name counts. -/
def ofEntries (entries : List (String × Entry α)) : Table α :=
  entries.foldl (fun table entry => table.insert entry.1 entry.2) empty

/-- The bindings of `front`, and those of `back` for all other names. -/
def layered (front back : Table α) : Table α := ⟨back.bindings ∪ front.bindings⟩

def allUsable (table : Table α) : Bool := table.bindings.all fun _ entry => entry.isUsable

def labels (table : Table α) : List (String × Option String) :=
  table.bindings.toList.map fun entry => (entry.1, entry.2.label?)

@[simp] theorem find?_empty (name : String) : (empty : Table α).find? name = none := by
  simp [find?, empty]

theorem find?_insert (table : Table α) (name key : String) (entry : Entry α) :
    (table.insert name entry).find? key =
      if name = key then some entry else table.find? key := by
  simp [find?, insert, Std.TreeMap.getElem?_insert]

@[simp] theorem find?_layered (front back : Table α) (name : String) :
    (layered front back).find? name = (front.find? name).or (back.find? name) :=
  Std.TreeMap.getElem?_union

end Table
end BraceTemplate
