import BraceTemplate.Text.Pieces

/-! # Paths

A path addresses a place in the data: segments separated by dots. The empty path and the path `.`
mean the place where one stands, so composing with either of them stays there.
-/
namespace BraceTemplate.Path

def here : String := "."

/-- The path `part` seen from `path`. -/
def compose (path part : String) : String :=
  if path = "" ∧ part = "" then here
  else if part = here ∨ part = "" then path
  else if path = "" then part
  else path ++ "." ++ part

def segments (path : String) : List String := Text.pieces '.' path

@[simp] theorem compose_empty_empty : compose "" "" = here := by simp [compose]

@[simp] theorem compose_here (path : String) : compose path here = path := by
  simp [compose, here]

theorem compose_empty_left {part : String} (h : part ≠ "") (h' : part ≠ here) :
    compose "" part = part := by
  simp [compose, h, h']

theorem segments_append_dot (p q : String) :
    segments (p ++ "." ++ q) = segments p ++ segments q := by
  simp [segments, Text.pieces, Text.cutAt_append_separator, List.append_assoc]

end BraceTemplate.Path
