import BraceTemplate.Decimal.Range
import BraceTemplate.Json.Reader
import BraceTemplate.Program.Schema
import BraceTemplate.Value.Printer

/-! # Reading programs

A program is an object with a body. The kind of an instruction is decided by its tag, wherever among
its members the tag stands; unknown members are skipped and the last of several equal ones counts. A
body that is not there is empty. The first fault in the order of the text is reported, with the place
where it was found.
-/
namespace BraceTemplate.Program
open Json

inductive Shape
  | null | bool | int | float | str | array | object
deriving DecidableEq, Repr

def Shape.name : Shape → String
  | null => "null"
  | bool => "bool"
  | int => "int"
  | float => "float"
  | str => "str"
  | array => "array"
  | object => "object"

inductive Fault where
  | expected (wanted got : Shape)
  | tagNotText
  | missing (field : String)
  | numberOutOfRange
  | unknownTag (tag : String)
deriving DecidableEq, Repr

/-- A step from an array or object to what it holds. -/
inductive Place where
  | field (name : String)
  | item (index : Nat)
deriving DecidableEq, Repr

inductive DecodeFailure where
  | malformed
  /-- The bytes of a string that matters are no text. -/
  | undecodable
  /-- The text is JSON of another shape; the place is listed from the inside out. -/
  | misshapen (fault : Fault) (place : List Place)
deriving DecidableEq, Repr

namespace DecodeFailure

def faultText : Fault → String
  | .expected wanted got => "Expected `" ++ wanted.name ++ "`, got `" ++ got.name ++ "`"
  | .tagNotText => "Expected `str`"
  | .missing field => "Object missing required field `" ++ field ++ "`"
  | .numberOutOfRange => "Number out of range"
  | .unknownTag tag => "Invalid value '" ++ tag ++ "'"

def placeText : Place → String
  | .field name => "." ++ name
  | .item index => "[" ++ Value.natText index ++ "]"

/-- A place is told unless it is the root. -/
def locationText (place : List Place) : String :=
  if place.isEmpty then ""
  else " - at `$" ++ String.join (place.reverse.map placeText) ++ "`"

def message? : DecodeFailure → Option String
  | misshapen fault place => some ("Invalid program: " ++ faultText fault ++ locationText place)
  | _ => none

end DecodeFailure

abbrev Decoded (α : Type) := Except DecodeFailure α

def digitsValue (cs : Chars) : Nat := cs.foldl (fun v c => 10 * v + (digit? c).getD 0) 0

def exponentBound : Nat := 10000

/-- An exponent that has reached the bound takes no more digits. -/
def exponentMagnitude (cs : Chars) : Nat :=
  cs.foldl (fun e c => if e < exponentBound then 10 * e + (digit? c).getD 0 else e) 0

def exponentValue (n : Json.Number) : Int :=
  match n.exponent with
  | none => 0
  | some (mark, digits) =>
    if mark.contains (some '-') then -(exponentMagnitude digits : Int) else exponentMagnitude digits

def overflows (n : Json.Number) : Bool :=
  Decimal.overflows (digitsValue (n.whole ++ n.fraction)) (exponentValue n - n.fraction.length)

example : exponentMagnitude (charsOf "0012345678") = 12345 := by decide

/-- The least magnitude that a word of 64 bits cannot hold, signed for negative numbers and unsigned for
the others. -/
def wordBound (negative : Bool) : Nat := if negative then Nat.pow 2 63 + 1 else Nat.pow 2 64

/-- An integer that no word of 64 bits holds, signed or not, counts as floating-point. -/
def numberShape (n : Json.Number) : Shape :=
  if n.isInteger ∧ digitsValue n.whole < wordBound n.negative then .int else .float

/-- The failure of a value where another shape is wanted. Numbers are read to their end and arrays and
objects are not, so a number has its own faults but what is inside the others does not matter. -/
def mismatch (wanted : Shape) (place : List Place) : Json → DecodeFailure
  | .null => .misshapen (.expected wanted .null) place
  | .bool _ => .misshapen (.expected wanted .bool) place
  | .number n =>
    if overflows n then .misshapen .numberOutOfRange place
    else .misshapen (.expected wanted (numberShape n)) place
  | .str _ => .misshapen (.expected wanted .str) place
  | .array _ _ => .misshapen (.expected wanted .array) place
  | .object _ _ => .misshapen (.expected wanted .object) place
  | .broken => .malformed

def decodeContent (content : Chars) : Decoded String :=
  match Text.textOfChars? content with
  | some text => .ok text
  | none => .error .undecodable

def decodeText (place : List Place) : Json → Decoded String
  | .str content => decodeContent content
  | other => .error (mismatch .str place other)

/-- The text of a tag. Anything but a string is read to its end before it is refused. -/
def tagText (place : List Place) : Json → Decoded String
  | .str content => decodeContent content
  | other =>
    if other.isWhole then .error (.misshapen .tagNotText (.field tagField :: place))
    else .error .malformed

def decodeKind (place : List Place) (value : Json) : Decoded Instruction.Kind :=
  match tagText place value with
  | .error failure => .error failure
  | .ok tag =>
    match Instruction.Kind.ofTag? tag with
    | some kind => .ok kind
    | none => .error (.misshapen (.unknownTag tag) (.field tagField :: place))

/-- The kind that the first tag among the members names. -/
def findKind (place : List Place) (members : List (Chars × Json)) (whole : Bool) :
    Decoded Instruction.Kind :=
  match members.lookup (charsOf tagField) with
  | some value => decodeKind place value
  | none =>
    if whole then .error (.misshapen (.missing tagField) place) else .error .malformed

/-- A tag that is met again must be the same. -/
def checkTag (place : List Place) (kind : Instruction.Kind) (value : Json) : Decoded Unit :=
  match tagText place value with
  | .error failure => .error failure
  | .ok tag =>
    if tag = kind.tag then .ok ()
    else .error (.misshapen (.unknownTag tag) (.field tagField :: place))

structure Fields where
  text : Option String
  body : Fragment

def finish (place : List Place) (kind : Instruction.Kind) (whole : Bool) (fields : Fields) :
    Decoded Instruction :=
  if whole then
    match fields.text with
    | some text => .ok (.ofKind kind text fields.body)
    | none => .error (.misshapen (.missing kind.field) place)
  else .error .malformed

mutual

def decodeInstruction (place : List Place) : Json → Decoded Instruction
  | .object members whole =>
    match findKind place members whole with
    | .error failure => .error failure
    | .ok kind =>
      match decodeMembers place kind ⟨none, []⟩ members with
      | .error failure => .error failure
      | .ok fields => finish place kind whole fields
  | other => .error (mismatch .object place other)
termination_by structural j => j

def decodeMembers (place : List Place) (kind : Instruction.Kind) (fields : Fields) :
    List (Chars × Json) → Decoded Fields
  | [] => .ok fields
  | (key, value) :: rest =>
    if key = charsOf tagField then
      match checkTag place kind value with
      | .error failure => .error failure
      | .ok _ => decodeMembers place kind fields rest
    else if key = charsOf kind.field then
      match decodeText (.field kind.field :: place) value with
      | .error failure => .error failure
      | .ok text => decodeMembers place kind { fields with text := some text } rest
    else if kind.hasBody ∧ key = charsOf bodyField then
      match decodeBody (.field bodyField :: place) value with
      | .error failure => .error failure
      | .ok body => decodeMembers place kind { fields with body := body } rest
    else decodeMembers place kind fields rest
termination_by structural members => members

def decodeBody (place : List Place) : Json → Decoded Fragment
  | .array items whole =>
    match decodeItems place 0 items with
    | .error failure => .error failure
    | .ok body => if whole then .ok body else .error .malformed
  | other => .error (mismatch .array place other)
termination_by structural j => j

def decodeItems (place : List Place) (index : Nat) : List Json → Decoded Fragment
  | [] => .ok []
  | item :: rest =>
    match decodeInstruction (.item index :: place) item with
    | .error failure => .error failure
    | .ok i => (decodeItems place (index + 1) rest).map (i :: ·)
termination_by structural items => items

end

def decodeRootMembers (body : Fragment) : List (Chars × Json) → Decoded Fragment
  | [] => .ok body
  | (key, value) :: rest =>
    if key = charsOf bodyField then
      match decodeBody [.field bodyField] value with
      | .error failure => .error failure
      | .ok body => decodeRootMembers body rest
    else decodeRootMembers body rest

def ofJson : Json → Decoded Program
  | .object members whole =>
    match decodeRootMembers [] members with
    | .error failure => .error failure
    | .ok body => if whole then .ok ⟨body⟩ else .error .malformed
  | other => .error (mismatch .object [] other)

/-- Behind the program only blanks may follow. -/
def ofChars (cs : Chars) : Decoded Program :=
  let (value, after) := read cs
  match ofJson value with
  | .error failure => .error failure
  | .ok program =>
    if (dropBlanks (after.getD [])).isEmpty then .ok program else .error .malformed

def decode (bytes : ByteArray) : Decoded Program := ofChars (Text.utf8Chars bytes)

end BraceTemplate.Program
