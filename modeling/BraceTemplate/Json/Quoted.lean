import BraceTemplate.Json.Basic
import BraceTemplate.Text.Quoted

/-! # JSON strings

A string is written with the shortest escapes for the quote, the backslash and the control characters
below U+0020; everything else stands as it is. When read, every character may be escaped, characters
beyond U+FFFF by a pair of surrogates.
-/
namespace BraceTemplate.Json

def quotedChar (c : Char) : List Char :=
  if c = '"' then ['\\', '"']
  else if c = '\\' then ['\\', '\\']
  else if c = '\x08' then ['\\', 'b']
  else if c = '\t' then ['\\', 't']
  else if c = '\n' then ['\\', 'n']
  else if c = '\x0c' then ['\\', 'f']
  else if c = '\r' then ['\\', 'r']
  else if c.toNat < 0x20 then '\\' :: 'u' :: Text.hexDigits 4 c.toNat
  else [c]

def quotedChars (cs : List Char) : List Char := '"' :: cs.flatMap quotedChar ++ ['"']

def hexValue? (c : Char) : Option Nat :=
  if '0' ≤ c ∧ c ≤ '9' then some (c.toNat - 0x30)
  else if 'a' ≤ c ∧ c ≤ 'f' then some (c.toNat - 0x57)
  else if 'A' ≤ c ∧ c ≤ 'F' then some (c.toNat - 0x37)
  else none

def digit? (c : Option Char) : Option Nat := c.bind hexValue?

def readUnit? : Chars → Option Nat
  | a :: b :: c :: d :: _ => do
    let a ← digit? a
    let b ← digit? b
    let c ← digit? c
    let d ← digit? d
    return ((a * 16 + b) * 16 + c) * 16 + d
  | _ => none

def isHighSurrogate (unit : Nat) : Bool := 0xd800 ≤ unit && unit < 0xdc00

def isLowSurrogate (unit : Nat) : Bool := 0xdc00 ≤ unit && unit < 0xe000

def surrogatePair (high low : Nat) : Char :=
  .ofNat (0x10000 + (high - 0xd800) * 0x400 + (low - 0xdc00))

/-- The low surrogate of an escape that follows the escape of a high one. -/
def readPartner? : Chars → Option Nat
  | some '\\' :: some 'u' :: rest => (readUnit? rest).filter isLowSurrogate
  | _ => none

/-- The character of an escape behind its `u`, and how many characters spell it; a surrogate must come
with its partner. -/
def readCodePoint? (cs : Chars) : Option (Char × Nat) :=
  match readUnit? cs with
  | none => none
  | some unit =>
    if isLowSurrogate unit then none
    else if isHighSurrogate unit then
      (readPartner? (cs.drop 4)).map fun low => (surrogatePair unit low, 10)
    else some (.ofNat unit, 4)

def letterChar? (c : Char) : Option Char :=
  if c = '"' ∨ c = '\\' ∨ c = '/' then some c
  else if c = 'b' then some '\x08'
  else if c = 'f' then some '\x0c'
  else if c = 'n' then some '\n'
  else if c = 'r' then some '\r'
  else if c = 't' then some '\t'
  else none

/-- The character of an escape behind its backslash, and how many characters spell it. -/
def readEscape? : Chars → Option (Char × Nat)
  | some c :: rest =>
    if c = 'u' then (readCodePoint? rest).map fun r => (r.1, r.2 + 1)
    else (letterChar? c).map (·, 1)
  | _ => none

/-- The content of a string from here on, and what follows its closing quote. The first `skip`
characters belong to an escape that is read already. -/
def readContent? : (skip : Nat) → Chars → Option (Chars × Chars)
  | _, [] => none
  | skip + 1, _ :: rest => readContent? skip rest
  | 0, none :: rest => (readContent? 0 rest).map fun r => (none :: r.1, r.2)
  | 0, some c :: rest =>
    if c = '"' then some ([], rest)
    else if c = '\\' then
      match readEscape? rest with
      | none => none
      | some (c, used) => (readContent? used rest).map fun r => (some c :: r.1, r.2)
    else if c.toNat < 0x20 then none
    else (readContent? 0 rest).map fun r => (some c :: r.1, r.2)

def readString? (cs : Chars) : Option (Chars × Chars) := readContent? 0 cs

end BraceTemplate.Json
