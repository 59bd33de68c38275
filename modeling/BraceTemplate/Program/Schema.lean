import BraceTemplate.Program.Basic

/-! # Names in serialized programs

A serialized instruction is an object with a tag for its kind, one field with a text, and for some kinds
a body.
-/
namespace BraceTemplate.Instruction

namespace Kind

def tag : Kind → String
  | literal => "EmitLiteral"
  | value => "EmitResolvedPath"
  | location => "EmitCurrentPath"
  | within => "WithPath"
  | ifDefined => "IfPathDefined"
  | forEach => "ForEachPathSegment"
  | call => "CallUserFunction"
  | verbatim => "EmitLiteralTree"

def all : List Kind :=
  [literal, value, location, within, ifDefined, forEach, call, verbatim]

def ofTag? (tag : String) : Option Kind := all.find? (·.tag == tag)

def field : Kind → String
  | literal => "text"
  | call => "name"
  | verbatim => "source"
  | _ => "path"

def hasBody : Kind → Bool
  | within => true
  | ifDefined => true
  | forEach => true
  | _ => false

@[simp] theorem ofTag?_tag (kind : Kind) : ofTag? kind.tag = some kind := by
  cases kind <;> decide

end Kind

def ofKind (kind : Kind) (text : String) (body : Fragment) : Instruction :=
  match kind with
  | .literal => .literal text
  | .value => .value text
  | .location => .location text
  | .within => .within text body
  | .ifDefined => .ifDefined text body
  | .forEach => .forEach text body
  | .call => .call text
  | .verbatim => .verbatim text

@[simp] theorem ofKind_kind (i : Instruction) : ofKind i.kind i.argument i.body = i := by
  cases i <;> rfl

theorem body_of_not_hasBody {i : Instruction} (h : i.kind.hasBody = false) : i.body = [] := by
  cases i <;> first | rfl | simp [kind, Kind.hasBody] at h

end BraceTemplate.Instruction

namespace BraceTemplate.Program

def tagField : String := "type"

def bodyField : String := "body"

end BraceTemplate.Program
