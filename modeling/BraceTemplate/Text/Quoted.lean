import BraceTemplate.Text.Printable

/-! # Quoted texts and bytes

A text is quoted with apostrophes unless it holds an apostrophe and no double quote. Inside, the
backslash, the quote in use, tab, line feed and carriage return are escaped by a letter, and what is
not printable by its code point. Bytes are quoted alike, with every byte outside ASCII escaped.
-/
namespace BraceTemplate.Text

def hexDigit (n : Nat) : Char :=
  if n < 10 then Char.ofNat (0x30 + n) else Char.ofNat (0x57 + n)

/-- The last `width` digits of `n` in base sixteen, in lower case. -/
def hexDigits : (width : Nat) → (n : Nat) → List Char
  | 0, _ => []
  | width + 1, n => hexDigits width (n / 16) ++ [hexDigit (n % 16)]

/-- A code point by the shortest of the three escapes that can hold it. -/
def codePointEscape (n : Nat) : List Char :=
  if n < 0x100 then '\\' :: 'x' :: hexDigits 2 n
  else if n < 0x10000 then '\\' :: 'u' :: hexDigits 4 n
  else '\\' :: 'U' :: hexDigits 8 n

def quoteFor (cs : List Char) : Char :=
  if cs.contains '\'' && !cs.contains '"' then '"' else '\''

/-- The escape of a character that is escaped by a letter or by itself. -/
def letterEscape? (quote c : Char) : Option (List Char) :=
  if c = quote || c = '\\' then some ['\\', c]
  else if c = '\t' then some ['\\', 't']
  else if c = '\n' then some ['\\', 'n']
  else if c = '\r' then some ['\\', 'r']
  else none

def quotedChar (quote c : Char) : List Char :=
  (letterEscape? quote c).getD (if isPrintable c then [c] else codePointEscape c.toNat)

def quotedByte (quote : Char) (b : UInt8) : List Char :=
  let c := Char.ofNat b.toNat
  (letterEscape? quote c).getD
    (if 0x20 ≤ b && b < 0x7f then [c] else codePointEscape b.toNat)

def quoted (text : String) : String :=
  let quote := quoteFor text.toList
  String.ofList (quote :: text.toList.flatMap (quotedChar quote) ++ [quote])

def quotedBytes (bytes : List UInt8) : String :=
  let quote := quoteFor (bytes.map fun b => Char.ofNat b.toNat)
  String.ofList ('b' :: quote :: bytes.flatMap (quotedByte quote) ++ [quote])

example : quoted "it's \\ \t\u00ad" = "\"it's \\\\ \\t\\xad\"" := by decide
example : quoted "a'b\"c" = "'a\\'b\"c'" := by decide
example : quotedBytes [0x61, 0xff, 0x27] = "b\"a\\xff'\"" := by decide

end BraceTemplate.Text
