/-! # Characters of a byte sequence

The bytes are cut from left to right. Where the encoding of a character stands, the character is
taken; any other byte belongs to no character and is given up alone. An ASCII byte is always a
character of its own, so damage never hides a delimiter.
-/
namespace BraceTemplate.Text

def utf8CharsFrom (bytes : ByteArray) (i : Nat) : List (Option Char) :=
  if i < bytes.size then
    match bytes.utf8DecodeChar? i with
    | some c => some c :: utf8CharsFrom bytes (i + c.utf8Size)
    | none => none :: utf8CharsFrom bytes (i + 1)
  else []
termination_by bytes.size - i
decreasing_by
  · have := c.utf8Size_pos; omega
  · omega

/-- The characters of `bytes`, with `none` for each byte that belongs to no character. -/
def utf8Chars (bytes : ByteArray) : List (Option Char) := utf8CharsFrom bytes 0

/-- The text of the characters read, if none of them is missing. -/
def textOfChars? (cs : List (Option Char)) : Option String :=
  if cs.all Option.isSome then some (String.ofList (cs.filterMap id)) else none

@[simp] theorem textOfChars?_map_some (cs : List Char) :
    textOfChars? (cs.map some) = some (String.ofList cs) := by
  simp [textOfChars?, List.filterMap_map]

end BraceTemplate.Text
