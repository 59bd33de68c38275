import BraceTemplate.Json.Writer
import BraceTemplate.Program.Schema

/-! # Writing programs

The object of an instruction has its tag first, then its text, and last its body, which is there also
when it is empty.
-/
namespace BraceTemplate

namespace Instruction
open Json Program

/-- The object of an instruction, given the members behind its text. -/
def object (kind : Kind) (text : String) (more : List (Chars × Json)) : Json :=
  .object ((charsOf tagField, ofText kind.tag) :: (charsOf kind.field, ofText text) :: more) true

def bodyMember (items : List Json) : Chars × Json := (charsOf bodyField, .array items true)

mutual

def toJson : Instruction → Json
  | literal text => object .literal text []
  | value path => object .value path []
  | location path => object .location path []
  | within path body => object .within path [bodyMember (bodyJson body)]
  | ifDefined path body => object .ifDefined path [bodyMember (bodyJson body)]
  | forEach path body => object .forEach path [bodyMember (bodyJson body)]
  | call name => object .call name []
  | verbatim source => object .verbatim source []
termination_by structural i => i

def bodyJson : List Instruction → List Json
  | [] => []
  | i :: rest => toJson i :: bodyJson rest
termination_by structural b => b

end

end Instruction

namespace Program

def toJson (program : Program) : Json :=
  .object [Instruction.bodyMember (Instruction.bodyJson program.body)] true

def encode (program : Program) : String := String.ofList program.toJson.write

example : (Program.mk [.within "a\n" []]).encode =
    "\x7b\"body\":[\x7b\"type\":\"WithPath\",\"path\":\"a\\n\",\"body\":[]\x7d]\x7d" := by decide

end Program
end BraceTemplate
