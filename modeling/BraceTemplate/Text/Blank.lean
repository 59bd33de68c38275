/-! # Blank characters and the leading token of a text

A blank separates words: Unicode white space together with the four information separators
U+001C to U+001F. The leading token of a text is its longest prefix without a blank, and what
follows the token starts with no blank.
-/
namespace BraceTemplate.Text

def isBlank (c : Char) : Bool :=
  let n := c.toNat
  (0x09 ≤ n && n ≤ 0x0d) || (0x1c ≤ n && n ≤ 0x20) || n == 0x85 || n == 0xa0 || n == 0x1680 ||
    (0x2000 ≤ n && n ≤ 0x200a) || n == 0x2028 || n == 0x2029 || n == 0x202f || n == 0x205f ||
    n == 0x3000

def dropBlanks (text : String) : String :=
  String.ofList (text.toList.dropWhile isBlank)

def leadingToken (text : String) : String :=
  String.ofList (text.toList.takeWhile (!isBlank ·))

/-- What stands behind the leading token, without the blanks between. -/
def afterToken (text : String) : String :=
  String.ofList ((text.toList.dropWhile (!isBlank ·)).dropWhile isBlank)

@[simp] theorem toList_dropBlanks (text : String) :
    (dropBlanks text).toList = text.toList.dropWhile isBlank := String.toList_ofList

@[simp] theorem toList_leadingToken (text : String) :
    (leadingToken text).toList = text.toList.takeWhile (!isBlank ·) := String.toList_ofList

@[simp] theorem toList_afterToken (text : String) :
    (afterToken text).toList = (text.toList.dropWhile (!isBlank ·)).dropWhile isBlank :=
  String.toList_ofList

end BraceTemplate.Text
