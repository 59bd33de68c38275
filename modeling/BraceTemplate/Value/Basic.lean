import BraceTemplate.Decimal.Binary64

/-! # Data values

The data that a template is rendered against. A map lists its entries in the order of insertion and
an object its fields. Numbers are equal as keys when they are equal as numbers, so that `1`, `true`
and `1.0` are one key; inserting under a key that is there keeps the key and replaces the value.
-/
namespace BraceTemplate

inductive Value where
  | null
  | bool (b : Bool)
  | int (n : Int)
  | float (x : Float)
  | text (s : String)
  | bytes (data : List UInt8)
  | list (items : List Value)
  | tuple (items : List Value)
  | map (entries : List (Value × Value))
  | object (fields : List (String × Value))
  | method
deriving Inhabited

namespace Value
open Decimal

/-- A number as a key: an integer or a floating-point number. -/
inductive Number
  | whole (n : Int)
  | binary (x : Binary64)

def Number.same : Number → Number → Bool
  | .whole n, .whole k => n == k
  | .whole n, .binary x => x.isInt n
  | .binary x, .whole n => x.isInt n
  | .binary x, .binary y => x.sameNumber y

def number? : Value → Option Number
  | .bool b => some (.whole b.toInt)
  | .int n => some (.whole n)
  | .float x => some (.binary (.ofBits x.toBits))
  | _ => none

mutual

def sameKey : Value → Value → Bool
  | .null, .null => true
  | .text a, .text b => a == b
  | .bytes a, .bytes b => a == b
  | .tuple a, .tuple b => sameKeys a b
  | a, b =>
    match a.number?, b.number? with
    | some x, some y => x.same y
    | _, _ => false
termination_by structural a => a

def sameKeys : List Value → List Value → Bool
  | [], [] => true
  | a :: as, b :: bs => sameKey a b && sameKeys as bs
  | _, _ => false
termination_by structural a => a

end

@[simp] theorem sameKey_text (a b : String) : sameKey (.text a) (.text b) = (a == b) := by
  simp [sameKey]

@[simp] theorem sameKey_int (n k : Int) : sameKey (.int n) (.int k) = (n == k) := by
  simp [sameKey, number?, Number.same]

def atKey? (key : Value) (entries : List (Value × Value)) : Option Value :=
  (entries.find? fun e => sameKey e.1 key).map Prod.snd

def insertEntry (key value : Value) : List (Value × Value) → List (Value × Value)
  | [] => [(key, value)]
  | (k, v) :: rest =>
    if sameKey k key then (k, value) :: rest else (k, v) :: insertEntry key value rest

def ofEntries (entries : List (Value × Value)) : Value :=
  .map (entries.foldl (fun es e => insertEntry e.1 e.2 es) [])

def insertField (name : String) (value : Value) : List (String × Value) → List (String × Value)
  | [] => [(name, value)]
  | (n, v) :: rest =>
    if n = name then (n, value) :: rest else (n, v) :: insertField name value rest

def ofFields (fields : List (String × Value)) : Value :=
  .object (fields.foldl (fun fs f => insertField f.1 f.2 fs) [])

def isNull : Value → Bool
  | .null => true
  | _ => false

/-- Absent values: null, false, zero, NaN and the empty text. Empty collections are present. -/
def isAbsent : Value → Bool
  | .null => true
  | .bool b => !b
  | .int n => n == 0
  | .float x => (Binary64.ofBits x.toBits).isZero || Binary64.ofBits x.toBits == .nan
  | .text s => s == ""
  | _ => false

@[simp] theorem isAbsent_null : isAbsent .null = true := rfl

end Value
end BraceTemplate
