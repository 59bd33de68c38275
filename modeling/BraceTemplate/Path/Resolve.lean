import BraceTemplate.Path.Basic
import BraceTemplate.Text.DecimalDigit
import BraceTemplate.Value.Printer

/-! # Resolving paths

A path is resolved one segment after the other, and ends in nothing as soon as a segment meets an
absent value. A segment names a text key of a map or, written in decimal digits, an integer key;
it indexes a sequence in decimal digits; it names a public attribute of anything else but texts
and bytes. Where the decimal digits of a segment are needed, a limit on digits has to admit them.
-/
namespace BraceTemplate.Path
open Text

def integerAttribute? (n : Int) (name : String) : Option Value :=
  if name = "real" ∨ name = "numerator" then some (.int n)
  else if name = "imag" then some (.int 0)
  else if name = "denominator" then some (.int 1)
  else if name ∈ ["as_integer_ratio", "bit_count", "bit_length", "conjugate", "from_bytes",
    "to_bytes"] then some .method
  else none

def floatAttribute? (x : Float) (name : String) : Option Value :=
  if name = "real" then some (.float x)
  else if name = "imag" then some (.float 0.0)
  else if name ∈ ["as_integer_ratio", "conjugate", "fromhex", "hex", "is_integer"] then
    some .method
  else none

def isPrivate (name : String) : Bool := name.toList.head? == some '_'

/-- A name that starts with an underscore is private and names nothing. -/
def attribute? (value : Value) (name : String) : Option Value :=
  if isPrivate name then none
  else match value with
    | .bool b => integerAttribute? b.toInt name
    | .int n => integerAttribute? n name
    | .float x => floatAttribute? x name
    | .object fields => fields.lookup name
    | _ => none

def index? (items : List Value) (segment : String) : Option Value :=
  (readDecimal? segment).bind fun i => items[i]?

def atSegment? (entries : List (Value × Value)) (segment : String) : Option Value :=
  match Value.atKey? (.text segment) entries with
  | some value => some value
  | none => (readDecimal? segment).bind fun n => Value.atKey? (.int n) entries

def lookup? (value : Value) (segment : String) : Option Value :=
  match value with
  | .map entries => atSegment? entries segment
  | .list items => index? items segment
  | .tuple items => index? items segment
  | .text _ => none
  | .bytes _ => none
  | value => attribute? value segment

/-- Follows the segments; an absent value ends the way with null. -/
def follow : Value → List String → Value
  | value, [] => value
  | value, segment :: rest =>
    let next := (lookup? value segment).getD .null
    if next.isAbsent then .null else follow next rest

/-- The value at `path`, null when there is none or it is absent. -/
def resolve (data : Value) (path : String) : Value :=
  if path = "" ∨ path = here then data else follow data (segments path)

/-- What the entries of a collection are found under, in order: indices or keys. -/
def entryKeys : Value → List Value
  | .list items => (List.range items.length).map fun i => .int (i : Nat)
  | .tuple items => (List.range items.length).map fun i => .int (i : Nat)
  | .map entries => entries.map Prod.fst
  | _ => []

def entrySegments (value : Value) : List String := (entryKeys value).map Value.display

/-- Whether the limit admits the segment, if it is read as a number. -/
def numeralReadable (limit : DigitLimit) (segment : String) : Bool :=
  (readDecimal? segment).isNone || limit.admits segment.length

/-- A text key is found without reading the segment as a number. -/
def lookupReadable (limit : DigitLimit) (value : Value) (segment : String) : Bool :=
  match value with
  | .map entries => (Value.atKey? (.text segment) entries).isSome || numeralReadable limit segment
  | .list _ => numeralReadable limit segment
  | .tuple _ => numeralReadable limit segment
  | _ => true

/-- Segments behind an absent value are not looked at. -/
def followReadable (limit : DigitLimit) : Value → List String → Bool
  | _, [] => true
  | value, segment :: rest =>
    let next := (lookup? value segment).getD .null
    lookupReadable limit value segment && (next.isAbsent || followReadable limit next rest)

def readable (limit : DigitLimit) (data : Value) (path : String) : Bool :=
  if path = "" ∨ path = here then true else followReadable limit data (segments path)

@[simp] theorem resolve_empty (data : Value) : resolve data "" = data := by simp [resolve]

@[simp] theorem resolve_here (data : Value) : resolve data here = data := by simp [resolve]

@[simp] theorem follow_null (segments : List String) : follow .null segments = .null := by
  cases segments <;> simp [follow, lookup?, attribute?]

@[simp] theorem lookupReadable_unlimited (value : Value) (segment : String) :
    lookupReadable .unlimited value segment = true := by
  cases value <;> simp [lookupReadable, numeralReadable]

@[simp] theorem followReadable_unlimited (value : Value) (segments : List String) :
    followReadable .unlimited value segments = true := by
  induction segments generalizing value with
  | nil => rfl
  | cons segment rest ih => simp [followReadable, ih]

@[simp] theorem readable_unlimited (data : Value) (path : String) :
    readable .unlimited data path = true := by
  simp [readable]

theorem follow_append (value : Value) (as bs : List String) :
    follow value (as ++ bs) = follow (follow value as) bs := by
  induction as generalizing value with
  | nil => rfl
  | cons a as ih =>
    simp only [List.cons_append, follow]
    split
    · exact (follow_null bs).symm
    · exact ih _

end BraceTemplate.Path
