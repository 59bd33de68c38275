/-! # Pieces between separators

A text is cut at every occurrence of a separator, so there is one piece more than there are
separators, and the empty text has one empty piece.
-/
namespace BraceTemplate.Text

/-- The text before the first separator, and the texts after each separator. -/
def cutAt (separator : Char) : List Char → List Char × List (List Char)
  | [] => ([], [])
  | c :: cs =>
    let (first, rest) := cutAt separator cs
    if c = separator then ([], first :: rest) else (c :: first, rest)

def pieces (separator : Char) (text : String) : List String :=
  let (first, rest) := cutAt separator text.toList
  String.ofList first :: rest.map String.ofList

theorem cutAt_append_separator (separator : Char) (as bs : List Char) :
    cutAt separator (as ++ separator :: bs) =
      ((cutAt separator as).1,
        (cutAt separator as).2 ++ (cutAt separator bs).1 :: (cutAt separator bs).2) := by
  induction as with
  | nil => simp [cutAt]
  | cons c cs ih => by_cases h : c = separator <;> simp [cutAt, h, ih]

example : pieces '.' "a..b" = ["a", "", "b"] := by decide
example : pieces '/' "" = [""] := by decide

end BraceTemplate.Text
