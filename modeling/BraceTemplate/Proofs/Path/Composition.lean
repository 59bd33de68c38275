import BraceTemplate.Path.Resolve

/-! # Resolving composed paths

A composed path resolves to what its parts resolve to one after the other, where an absent value leads
to nothing but absent values. Only the path `.` does not compose like this: it means the place where one
stands, but a part behind it makes its dot a separator of two empty segments.
-/
namespace BraceTemplate.Path

theorem compose_of_ne {path part : String} (hpath : path ≠ "") (hpart : part ≠ "")
    (hhere : part ≠ here) : compose path part = path ++ "." ++ part := by
  simp [compose, hpath, hpart, hhere]

theorem compose_empty_right {path : String} (hpath : path ≠ "") : compose path "" = path := by
  simp [compose, hpath]

theorem here_ne_empty : here ≠ "" := by decide

theorem compose_eq_empty_iff {path part : String} :
    compose path part = "" ↔ path = "" ∧ part = here := by
  by_cases hhere : part = here
  · simp [hhere]
  by_cases hempty : part = ""
  · subst hempty
    by_cases hpath : path = ""
    · simp [hpath, here_ne_empty, here_ne_empty.symm]
    · simp [compose_empty_right hpath, hpath]
  · by_cases hpath : path = ""
    · simp [hpath, compose_empty_left hempty hhere, hempty, hhere]
    · simp [compose_of_ne hpath hempty hhere, hhere]

theorem append_dot_ne_empty (p q : String) : p ++ "." ++ q ≠ "" := by
  simp

theorem append_dot_ne_here {p : String} (hp : p ≠ "") (q : String) : p ++ "." ++ q ≠ here := by
  intro h
  have hlength := congrArg String.length h
  have hpos : p.length ≠ 0 := by simpa using hp
  simp only [String.length_append, here] at hlength
  have hone : ".".length = 1 := rfl
  omega

/-- The empty part at the root changes nothing below another path. -/
theorem compose_compose_empty {path : String} (hpath : path ≠ "") (part : String) :
    compose path (compose "" part) = compose path part := by
  by_cases hhere : part = here
  · rw [hhere, compose_here, compose_here, compose_empty_right hpath]
  by_cases hempty : part = ""
  · rw [hempty, compose_empty_empty, compose_here, compose_empty_right hpath]
  · rw [compose_empty_left hempty hhere]

theorem compose_append_dot {path p : String} (hp : p ≠ "") (hp' : p ≠ here) (q : String) :
    compose path (p ++ "." ++ q) = compose path p ++ "." ++ q := by
  by_cases hpath : path = ""
  · rw [hpath, compose_empty_left hp hp',
      compose_empty_left (append_dot_ne_empty p q) (append_dot_ne_here hp q)]
  · rw [compose_of_ne hpath hp hp',
      compose_of_ne hpath (append_dot_ne_empty p q) (append_dot_ne_here hp q)]
    simp only [String.append_assoc]

/-- Composing is associative, unless the path in the middle is `.`, or it is empty at the root. -/
theorem compose_assoc {path part : String} (hpart : part ≠ here) (hroot : part ≠ "" ∨ path ≠ "")
    (last : String) : compose (compose path part) last = compose path (compose part last) := by
  by_cases hempty : part = ""
  · subst hempty
    have hpath := hroot.resolve_left fun h => h rfl
    rw [compose_empty_right hpath, compose_compose_empty hpath]
  have hfront : compose path part ≠ "" := fun h => hpart (compose_eq_empty_iff.mp h).2
  by_cases hhere : last = here
  · rw [hhere, compose_here, compose_here]
  by_cases hlast : last = ""
  · rw [hlast, compose_empty_right hfront, compose_empty_right hempty]
  · rw [compose_of_ne hfront hlast hhere, compose_of_ne hempty hlast hhere,
      compose_append_dot hempty hpart]

theorem resolve_of_ne {path : String} (data : Value) (hpath : path ≠ "") (hhere : path ≠ here) :
    resolve data path = follow data (segments path) := by
  rw [resolve, if_neg (not_or.mpr ⟨hpath, hhere⟩)]

theorem resolve_null (path : String) : resolve .null path = .null := by
  unfold resolve
  split
  · rfl
  · exact follow_null _

theorem resolve_append_dot {p q : String} (data : Value) (hp : p ≠ "") (hp' : p ≠ here)
    (hq : q ≠ "") (hq' : q ≠ here) :
    resolve data (p ++ "." ++ q) = resolve (resolve data p) q := by
  rw [resolve_of_ne data (append_dot_ne_empty p q) (append_dot_ne_here hp q), segments_append_dot,
    follow_append, resolve_of_ne data hp hp', resolve_of_ne _ hq hq']

/-- Resolving one path at the value of another one is resolving the composed path. -/
theorem resolve_resolve {path : String} (hpath : path ≠ here) (data : Value) (part : String) :
    resolve data (compose path part) = resolve (resolve data path) part := by
  by_cases hhere : part = here
  · rw [hhere, compose_here, resolve_here]
  by_cases hempty : part = ""
  · subst hempty
    rw [resolve_empty]
    by_cases hroot : path = ""
    · rw [hroot, compose_empty_empty, resolve_here, resolve_empty]
    · rw [compose_empty_right hroot]
  by_cases hroot : path = ""
  · rw [hroot, compose_empty_left hempty hhere, resolve_empty]
  · rw [compose_of_ne hroot hempty hhere, resolve_append_dot data hroot hpath hempty hhere]

/-- The path in front ends in an empty segment, which is a key, and the part goes on through an item
of a list and a field of an object. -/
theorem resolve_resolve_empty_key :
    "a." ≠ here ∧
    resolve (.map [(.text "a", .map [(.text "", .list [.null, .object [("n", .int 7)]])])])
        (compose "a." "1.n") = .int 7 ∧
    resolve (resolve (.map [(.text "a", .map [(.text "", .list [.null, .object [("n", .int 7)]])])])
        "a.") "1.n" = .int 7 := by
  have hpath : "a." ≠ here := by decide
  have hvalue : resolve (resolve (.map [(.text "a",
      .map [(.text "", .list [.null, .object [("n", .int 7)]])])]) "a.") "1.n" = .int 7 := by rfl
  exact ⟨hpath, (resolve_resolve hpath _ _).trans hvalue, hvalue⟩

end BraceTemplate.Path
