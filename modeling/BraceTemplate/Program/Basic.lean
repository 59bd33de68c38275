/-! # Programs

A template compiles to a program: a list of instructions, some of which carry a body of
instructions. A program is plain data, holds nothing of the data it renders and can be rendered any
number of times.
-/
namespace BraceTemplate

inductive Instruction where
  /-- Emits a text. -/
  | literal (text : String)
  /-- Emits the text of the value at a path seen from here. -/
  | value (path : String)
  /-- Emits a path seen from here. -/
  | location (path : String)
  /-- Runs the body at a path seen from here. -/
  | within (path : String) (body : List Instruction)
  /-- Runs the body here if there is a value at a path seen from here. -/
  | ifDefined (path : String) (body : List Instruction)
  /-- Runs the body at every entry of the collection at a path seen from here. -/
  | forEach (path : String) (body : List Instruction)
  /-- Emits what a user function answers for the current path. -/
  | call (name : String)
  /-- Emits the source of a part of the template that was not compiled. -/
  | verbatim (source : String)
deriving Inhabited

/-- A list of instructions that stands in for a group. -/
abbrev Fragment := List Instruction

structure Program where
  body : Fragment

namespace Instruction

inductive Kind
  | literal | value | location | within | ifDefined | forEach | call | verbatim
deriving DecidableEq, Repr

def kind : Instruction → Kind
  | literal _ => .literal
  | value _ => .value
  | location _ => .location
  | within _ _ => .within
  | ifDefined _ _ => .ifDefined
  | forEach _ _ => .forEach
  | call _ => .call
  | verbatim _ => .verbatim

/-- The text that every instruction carries: a text, a path, a name or a source. -/
def argument : Instruction → String
  | literal text => text
  | value path => path
  | location path => path
  | within path _ => path
  | ifDefined path _ => path
  | forEach path _ => path
  | call name => name
  | verbatim source => source

def body : Instruction → Fragment
  | within _ body => body
  | ifDefined _ body => body
  | forEach _ body => body
  | _ => []

mutual

def same : Instruction → Instruction → Bool
  | literal a, literal b => a == b
  | value a, value b => a == b
  | location a, location b => a == b
  | within a as, within b bs => a == b && sameBody as bs
  | ifDefined a as, ifDefined b bs => a == b && sameBody as bs
  | forEach a as, forEach b bs => a == b && sameBody as bs
  | call a, call b => a == b
  | verbatim a, verbatim b => a == b
  | _, _ => false
termination_by structural a => a

def sameBody : List Instruction → List Instruction → Bool
  | [], [] => true
  | a :: as, b :: bs => same a b && sameBody as bs
  | _, _ => false
termination_by structural a => a

end

mutual

theorem same_iff : ∀ a b : Instruction, same a b = true ↔ a = b
  | literal _, b => by cases b <;> simp [same]
  | value _, b => by cases b <;> simp [same]
  | location _, b => by cases b <;> simp [same]
  | within _ as, b => by cases b <;> simp [same, sameBody_iff as]
  | ifDefined _ as, b => by cases b <;> simp [same, sameBody_iff as]
  | forEach _ as, b => by cases b <;> simp [same, sameBody_iff as]
  | call _, b => by cases b <;> simp [same]
  | verbatim _, b => by cases b <;> simp [same]

theorem sameBody_iff : ∀ as bs : List Instruction, sameBody as bs = true ↔ as = bs
  | [], bs => by cases bs <;> simp [sameBody]
  | a :: as, bs => by cases bs <;> simp [sameBody, same_iff a, sameBody_iff as]

end

instance : DecidableEq Instruction := fun a b => decidable_of_iff _ (same_iff a b)

end Instruction

deriving instance DecidableEq for Program

/-- Induction over a body: the first instruction, its own body, and the instructions after it. -/
@[elab_as_elim]
theorem Fragment.induction {motive : Fragment → Prop} (nil : motive [])
    (cons : ∀ i rest, motive i.body → motive rest → motive (i :: rest)) :
    ∀ body, motive body :=
  fun body => Instruction.rec_1 (motive_1 := fun i => motive i.body) (motive_2 := motive)
    (fun _ => nil) (fun _ => nil) (fun _ => nil) (fun _ _ h => h) (fun _ _ h => h)
    (fun _ _ h => h) (fun _ => nil) (fun _ => nil) nil (fun i rest hi hrest => cons i rest hi hrest)
    body

end BraceTemplate
