import BraceTemplate.Tree.Basic

/-! # Reading a template

Braces always delimit groups, and every other character belongs to the text it stands in. The reader
goes over the template once and keeps the groups that are still open, the innermost first. A
template is refused at the offset of the brace at fault: a closing brace without a group to close,
or else the innermost brace that is never closed. Offsets count characters.
-/
namespace BraceTemplate

/-- A group whose closing brace has not been read: the offset of its opening brace, its texts and
nested groups so far, the last first, and the text being read, backwards. -/
structure OpenGroup where
  start : Nat
  pieces : List (String × Group)
  text : List Char
deriving Repr

namespace OpenGroup

def startingAt (start : Nat) : OpenGroup := ⟨start, [], []⟩

def push (group : OpenGroup) (c : Char) : OpenGroup := { group with text := c :: group.text }

def currentText (group : OpenGroup) : String := String.ofList group.text.reverse

def close (group : OpenGroup) : Group :=
  group.pieces.foldl (fun rest piece => .nest piece.1 piece.2 rest) (.text group.currentText)

def addGroup (group : OpenGroup) (inner : Group) : OpenGroup :=
  { group with pieces := (group.currentText, inner) :: group.pieces, text := [] }

end OpenGroup

/-- Where the reader stands: its offset, the innermost open group and the groups around it. -/
structure Reader where
  offset : Nat
  current : OpenGroup
  outer : List OpenGroup
deriving Repr

namespace Reader

def start : Reader := ⟨0, .startingAt 0, []⟩

/-- Reads one character, or fails with the offset of a brace that closes nothing. -/
def step (reader : Reader) (c : Char) : Except Nat Reader :=
  if c = '\x7b' then
    .ok ⟨reader.offset + 1, .startingAt reader.offset, reader.current :: reader.outer⟩
  else if c = '\x7d' then
    match reader.outer with
    | [] => .error reader.offset
    | parent :: outer => .ok ⟨reader.offset + 1, parent.addGroup reader.current.close, outer⟩
  else .ok { reader with offset := reader.offset + 1, current := reader.current.push c }

/-- At the end of the template no group may be open but the template itself. -/
def finish (reader : Reader) : Except Nat Group :=
  match reader.outer with
  | [] => .ok reader.current.close
  | _ :: _ => .error reader.current.start

def read : Reader → List Char → Except Nat Group
  | reader, [] => reader.finish
  | reader, c :: cs =>
    match reader.step c with
    | .ok next => next.read cs
    | .error offset => .error offset

end Reader

/-- The group that a template spells, or the offset of the brace at fault. -/
def Group.parse (source : String) : Except Nat Group := Reader.start.read source.toList

example : Group.parse "a\x7bb \x7bc\x7d\x7d" =
    .ok (.nest "a" (.nest "b " (.text "c") (.text "")) (.text "")) := by rfl
example : Group.parse "\x7ba\x7bb" = .error 2 := by rfl
example : Group.parse "a\x7d\x7b" = .error 1 := by rfl

end BraceTemplate
