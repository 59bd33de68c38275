import BraceTemplate.Json.Quoted

/-! # Reading JSON

Blanks may stand between tokens. Every function that reads a value returns it together with what
follows, or without when the text broke off inside.
-/
namespace BraceTemplate.Json

def isBlank : Option Char → Bool
  | some c => c = ' ' || c = '\n' || c = '\r' || c = '\t'
  | none => false

def dropBlanks (cs : Chars) : Chars := cs.dropWhile isBlank

def isDigit : Option Char → Bool
  | some c => '0' ≤ c && c ≤ '9'
  | none => false

/-- The digits of the whole part; a leading zero stands alone. -/
def readWhole? (cs : Chars) : Option (Chars × Chars) :=
  match cs.takeWhile isDigit with
  | [] => none
  | some '0' :: _ :: _ => none
  | digits => some (digits, cs.dropWhile isDigit)

/-- Digits that may not be missing. -/
def readDigits? (cs : Chars) : Option (Chars × Chars) :=
  match cs.takeWhile isDigit with
  | [] => none
  | digits => some (digits, cs.dropWhile isDigit)

def readFraction? : Chars → Option (Chars × Chars)
  | some '.' :: rest => readDigits? rest
  | cs => some ([], cs)

/-- The letter of an exponent with the sign behind it, if there is one. -/
def readMark? : Chars → Option (Chars × Chars)
  | some 'e' :: some '-' :: rest => some ([some 'e', some '-'], rest)
  | some 'e' :: some '+' :: rest => some ([some 'e', some '+'], rest)
  | some 'e' :: rest => some ([some 'e'], rest)
  | some 'E' :: some '-' :: rest => some ([some 'E', some '-'], rest)
  | some 'E' :: some '+' :: rest => some ([some 'E', some '+'], rest)
  | some 'E' :: rest => some ([some 'E'], rest)
  | _ => none

def readExponent? (cs : Chars) : Option (Option (Chars × Chars) × Chars) :=
  match readMark? cs with
  | none => some (none, cs)
  | some (mark, rest) => (readDigits? rest).map fun r => (some (mark, r.1), r.2)

def readMagnitude? (negative : Bool) (cs : Chars) : Option (Number × Chars) := do
  let (whole, cs) ← readWhole? cs
  let (fraction, cs) ← readFraction? cs
  let (exponent, cs) ← readExponent? cs
  return (⟨negative, whole, fraction, exponent⟩, cs)

def readNumber? : Chars → Option (Number × Chars)
  | some '-' :: rest => readMagnitude? true rest
  | cs => readMagnitude? false cs

def afterWord? (word : String) (cs : Chars) : Option Chars :=
  if (charsOf word).isPrefixOf cs then some (cs.drop word.length) else none

def readWord (word : String) (value : Json) (cs : Chars) : Json × Option Chars :=
  match afterWord? word cs with
  | some rest => (value, some rest)
  | none => (.broken, none)

/-- A key with the colon behind it. -/
def readKey? (cs : Chars) : Option (Chars × Chars) :=
  match dropBlanks cs with
  | some '"' :: rest =>
    match readString? rest with
    | some (key, rest) =>
      match dropBlanks rest with
      | some ':' :: rest => some (key, rest)
      | _ => none
    | none => none
  | _ => none

mutual

def readValue : (fuel : Nat) → Chars → Json × Option Chars
  | 0, _ => (.broken, none)
  | fuel + 1, cs =>
    match dropBlanks cs with
    | [] => (.broken, none)
    | some '"' :: rest =>
      match readString? rest with
      | some (content, rest) => (.str content, some rest)
      | none => (.broken, none)
    | some '[' :: rest =>
      match dropBlanks rest with
      | some ']' :: rest => (.array [] true, some rest)
      | _ =>
        let (items, after) := readItems fuel rest
        (.array items after.isSome, after)
    | some '\x7b' :: rest =>
      match dropBlanks rest with
      | some '\x7d' :: rest => (.object [] true, some rest)
      | _ =>
        let (members, after) := readMembers fuel rest
        (.object members after.isSome, after)
    | some 'n' :: rest => readWord "null" .null (some 'n' :: rest)
    | some 't' :: rest => readWord "true" (.bool true) (some 't' :: rest)
    | some 'f' :: rest => readWord "false" (.bool false) (some 'f' :: rest)
    | cs =>
      match readNumber? cs with
      | some (n, rest) => (.number n, some rest)
      | none => (.broken, none)

def readItems : (fuel : Nat) → Chars → List Json × Option Chars
  | 0, _ => ([], none)
  | fuel + 1, cs =>
    match readValue fuel cs with
    | (item, none) => ([item], none)
    | (item, some rest) =>
      match dropBlanks rest with
      | some ',' :: rest =>
        let (items, after) := readItems fuel rest
        (item :: items, after)
      | some ']' :: rest => ([item], some rest)
      | _ => ([item], none)

def readMembers : (fuel : Nat) → Chars → List (Chars × Json) × Option Chars
  | 0, _ => ([], none)
  | fuel + 1, cs =>
    match readKey? cs with
    | none => ([], none)
    | some (key, rest) =>
      match readValue fuel rest with
      | (value, none) => ([(key, value)], none)
      | (value, some rest) =>
        match dropBlanks rest with
        | some ',' :: rest =>
          let (members, after) := readMembers fuel rest
          ((key, value) :: members, after)
        | some '\x7d' :: rest => ([(key, value)], some rest)
        | _ => ([(key, value)], none)

end

/-- The value that a text starts with; every step reads a character, so the fuel suffices. -/
def read (cs : Chars) : Json × Option Chars := readValue (2 * cs.length + 2) cs

end BraceTemplate.Json
