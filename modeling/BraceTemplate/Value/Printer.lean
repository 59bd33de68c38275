import BraceTemplate.Decimal.Layout
import BraceTemplate.Text.DigitLimit
import BraceTemplate.Text.Quoted
import BraceTemplate.Value.Basic

/-! # Texts of values

A value has three texts. Its literal shows its structure, with texts in quotes. Its display is the
literal, except that a text is displayed as it is. Its rendered text is what a template emits: nothing
for null, lower-case truth values, and the items of a sequence separated by commas. All three show the
same integers, and can be written only if a limit on digits admits these.
-/
namespace BraceTemplate.Value
open Decimal Text

/-- Positional from `0.0001` up to sixteen digits before the point. -/
def floatLayout : Layout where
  lowestPoint := -3
  highestPoint := 16
  wholeEnding := ".0"
  exponentDigits := 2
  nan := "nan"
  infinity := "inf"

def natText (n : Nat) : String := String.ofList (Nat.toDigits 10 n)

def intText (n : Int) : String := (if n < 0 then "-" else "") ++ natText n.natAbs

def commaSeparated (items : List String) : String := ", ".intercalate items

mutual

def literal : Value → String
  | .null => "None"
  | .bool b => if b then "True" else "False"
  | .int n => intText n
  | .float x => floatLayout.write x
  | .text s => quoted s
  | .bytes data => quotedBytes data
  | .list items => "[" ++ commaSeparated (itemLiterals items) ++ "]"
  | .tuple items =>
    "(" ++ commaSeparated (itemLiterals items) ++ (if items.length = 1 then ",)" else ")")
  | .map entries => "\x7b" ++ commaSeparated (entryLiterals entries) ++ "\x7d"
  | .object fields => "namespace(" ++ commaSeparated (fieldLiterals fields) ++ ")"
  | .method => "<method>"
termination_by structural v => v

def itemLiterals : List Value → List String
  | [] => []
  | v :: rest => literal v :: itemLiterals rest
termination_by structural v => v

def entryLiterals : List (Value × Value) → List String
  | [] => []
  | (k, v) :: rest => (literal k ++ ": " ++ literal v) :: entryLiterals rest
termination_by structural v => v

/-- A field without a name is not shown. -/
def fieldLiterals : List (String × Value) → List String
  | [] => []
  | (name, v) :: rest =>
    if name = "" then fieldLiterals rest
    else (name ++ "=" ++ literal v) :: fieldLiterals rest
termination_by structural v => v

end

def display : Value → String
  | .text s => s
  | v => literal v

mutual

def toText : Value → String
  | .null => ""
  | .bool b => if b then "true" else "false"
  | .list items => ",".intercalate (itemTexts items)
  | .tuple items => ",".intercalate (itemTexts items)
  | v => display v
termination_by structural v => v

def itemTexts : List Value → List String
  | [] => []
  | v :: rest => toText v :: itemTexts rest
termination_by structural v => v

end

mutual

/-- Whether the limit admits every integer that shows in a text of the value. -/
def fits (limit : DigitLimit) : Value → Bool
  | .int n => limit.admits (natText n.natAbs).length
  | .list items => itemsFit limit items
  | .tuple items => itemsFit limit items
  | .map entries => entriesFit limit entries
  | .object fields => fieldsFit limit fields
  | _ => true
termination_by structural v => v

def itemsFit (limit : DigitLimit) : List Value → Bool
  | [] => true
  | v :: rest => fits limit v && itemsFit limit rest
termination_by structural v => v

def entriesFit (limit : DigitLimit) : List (Value × Value) → Bool
  | [] => true
  | (k, v) :: rest => fits limit k && fits limit v && entriesFit limit rest
termination_by structural v => v

def fieldsFit (limit : DigitLimit) : List (String × Value) → Bool
  | [] => true
  | (name, v) :: rest => (name == "" || fits limit v) && fieldsFit limit rest
termination_by structural v => v

end

mutual

@[simp] theorem fits_unlimited : (value : Value) → value.fits .unlimited = true
  | .int _ => rfl
  | .list items => itemsFit_unlimited items
  | .tuple items => itemsFit_unlimited items
  | .map entries => entriesFit_unlimited entries
  | .object fields => fieldsFit_unlimited fields
  | .null | .bool _ | .float _ | .text _ | .bytes _ | .method => rfl

theorem itemsFit_unlimited : (items : List Value) → itemsFit .unlimited items = true
  | [] => rfl
  | v :: rest => by rw [itemsFit, fits_unlimited v, itemsFit_unlimited rest]; rfl

theorem entriesFit_unlimited :
    (entries : List (Value × Value)) → entriesFit .unlimited entries = true
  | [] => rfl
  | (k, v) :: rest => by
    rw [entriesFit, fits_unlimited k, fits_unlimited v, entriesFit_unlimited rest]; rfl

theorem fieldsFit_unlimited :
    (fields : List (String × Value)) → fieldsFit .unlimited fields = true
  | [] => rfl
  | (name, v) :: rest => by
    rw [fieldsFit, fits_unlimited v, fieldsFit_unlimited rest, Bool.or_true]; rfl

end

example : literal (.tuple [.int (-1)]) = "(-1,)" := by decide
example : toText (.list [.null, .bool true, .list [.int 1, .text "x"]]) = ",true,1,x" := by decide
example : display (.map [(.text "a", .null)]) = "\x7b'a': None\x7d" := by decide

end BraceTemplate.Value
