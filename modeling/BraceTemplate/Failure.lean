import BraceTemplate.Value.Printer

/-! # Why compiling or rendering fails

A failure is a cause. Only some causes have a wording of this library; the others stand for faults in
what the caller hands in, and are told apart by their kind alone.
-/
namespace BraceTemplate

inductive Failure where
  /-- A brace closes nothing or is never closed. -/
  | unmatchedBrace (position : Nat)
  | unknownMacro (name : String)
  | unknownFunction (name : String)
  /-- A macro gave something else among its instructions. -/
  | notInstruction (value : Value)
  /-- A table entry is used that is no macro or function. -/
  | notCallable
  /-- A template is to be read from something that is no text. -/
  | notText
  | unreadableFile (path : String)
  /-- A path holds the NUL character, which no path of a file can. -/
  | impossiblePath
  | undecodableFile
  | invalidOptions
  | noSuchGroup
  /-- A macro, a function or a loader of the user gave up. -/
  | raised (message : String)
  /-- More macros are at work at once than the compiler allows. -/
  | tooDeep
  /-- A numeral is needed that the limit on digits does not admit. -/
  | tooManyDigits
deriving Inhabited

namespace Failure

/-- Integers in a message are written without a limit. -/
def message? : Failure → Option String
  | unmatchedBrace position => some ("Unmatched brace at position " ++ Value.natText position)
  | unknownMacro name => some ("Not a macro: " ++ name)
  | unknownFunction name => some ("Not a function: " ++ name)
  | notInstruction value => some ("Macro produced a non-instruction: " ++ value.literal)
  | notText => some "`source` must be a template string"
  | unreadableFile path => some ("Could not read file: " ++ path)
  | raised message => some message
  | _ => none

end Failure

abbrev Outcome (α : Type) := Except Failure α

end BraceTemplate
