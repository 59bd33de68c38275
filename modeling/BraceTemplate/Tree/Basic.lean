import BraceTemplate.Text.Blank

/-! # Groups

A group is what stands between two braces: a text, then perhaps a nested group and what follows it.
So the texts and the nested groups of a group alternate, with a text at both ends. The first text is
the head, from which macros take their name and their argument. A whole template is a group, too,
the one that no brace opens.
-/
namespace BraceTemplate

inductive Group where
  | text (head : String)
  | nest (head : String) (inner rest : Group)
deriving DecidableEq, Repr, Inhabited

namespace Group

def head : Group → String
  | text head => head
  | nest head _ _ => head

def setHead (group : Group) (head : String) : Group :=
  match group with
  | text _ => text head
  | nest _ inner rest => nest head inner rest

def innerSource : Group → String
  | text head => head
  | nest head inner rest => head ++ ("\x7b" ++ inner.innerSource ++ "\x7d") ++ rest.innerSource

def source (group : Group) : String := "\x7b" ++ group.innerSource ++ "\x7d"

def groups : Group → List Group
  | text _ => []
  | nest _ inner rest => inner :: rest.groups

def group? : Group → Nat → Option Group
  | text _, _ => none
  | nest _ inner _, 0 => some inner
  | nest _ _ rest, i + 1 => rest.group? i

/-- The texts at this level, in order; one more than there are nested groups. -/
def texts : Group → List String
  | text head => [head]
  | nest head _ rest => head :: rest.texts

/-- How deep groups are nested, the group itself included. -/
def height : Group → Nat
  | text _ => 1
  | nest _ inner rest => max (inner.height + 1) rest.height

/-- Replaces the nested group at an index; a missing index changes nothing. -/
def setGroup : Group → Nat → Group → Group
  | text head, _, _ => text head
  | nest head _ rest, 0, new => nest head new rest
  | nest head inner rest, i + 1, new => nest head inner (rest.setGroup i new)

/-- The group at an address, which lists an index for each level. -/
def at? : Group → List Nat → Option Group
  | group, [] => some group
  | group, i :: address => (group.group? i).bind (·.at? address)

def setAt (group : Group) : List Nat → Group → Group
  | [], new => new
  | i :: address, new =>
    match group.group? i with
    | some inner => group.setGroup i (inner.setAt address new)
    | none => group

def append : Group → String → Group
  | text head, more => text (head ++ more)
  | nest head inner rest, more => nest head inner (rest.append more)

def token (group : Group) : String := Text.leadingToken group.head

/-- The group without the leading token of its head and the blanks behind it. -/
def dropToken (group : Group) : Group := group.setHead (Text.afterToken group.head)

@[simp] theorem head_setHead (group : Group) (head : String) : (group.setHead head).head = head := by
  cases group <;> rfl

@[simp] theorem groups_setHead (group : Group) (head : String) :
    (group.setHead head).groups = group.groups := by
  cases group <;> rfl

@[simp] theorem setHead_head (group : Group) : group.setHead group.head = group := by
  cases group <;> rfl

@[simp] theorem head_dropToken (group : Group) :
    group.dropToken.head = Text.afterToken group.head := head_setHead _ _

@[simp] theorem groups_dropToken (group : Group) : group.dropToken.groups = group.groups :=
  groups_setHead _ _

@[simp] theorem height_setHead (group : Group) (head : String) :
    (group.setHead head).height = group.height := by
  cases group <;> rfl

end Group
end BraceTemplate
