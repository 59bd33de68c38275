import BraceTemplate.Text.Utf8

/-! # JSON as far as it can be read

The reader turns a text into a value even if the text is malformed: where it stops making sense, the
value is broken off, and the sequences around are marked as not whole. So a fault of shape before
that place is still found first. The characters of strings and numbers are kept as they were found,
those of strings without their escapes; a string may hold undecodable ones.
-/
namespace BraceTemplate

abbrev Chars := List (Option Char)

namespace Json

/-- A number by its spelling: no fraction and no exponent make an integer. The exponent comes with
its letter and its sign. -/
structure Number where
  negative : Bool
  whole : Chars
  fraction : Chars
  exponent : Option (Chars × Chars)
deriving DecidableEq, Repr, Inhabited

end Json

inductive Json where
  | null
  | bool (b : Bool)
  | number (n : Json.Number)
  | str (content : Chars)
  | array (items : List Json) (whole : Bool)
  | object (members : List (Chars × Json)) (whole : Bool)
  /-- What stands where a value is broken off. -/
  | broken
deriving Inhabited

namespace Json

def charsOf (text : String) : Chars := text.toList.map some

def ofText (text : String) : Json := .str (charsOf text)

/-- Whether a value was read to its end. What is broken off inside an array or object keeps that from
being whole, so only the outermost value is looked at. -/
def isWhole : Json → Bool
  | array _ whole => whole
  | object _ whole => whole
  | broken => false
  | _ => true

def Number.isInteger (number : Number) : Bool := number.fraction.isEmpty && number.exponent.isNone

def Number.spelling (number : Number) : Chars :=
  (if number.negative then [some '-'] else []) ++ number.whole ++
    (if number.fraction.isEmpty then [] else some '.' :: number.fraction) ++
    (match number.exponent with
      | some (mark, digits) => mark ++ digits
      | none => [])

end Json
end BraceTemplate
