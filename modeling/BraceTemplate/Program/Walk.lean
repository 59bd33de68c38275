import BraceTemplate.Program.Basic

/-! # Walking a program

The walk goes over all instructions depth first, with a stack of the instructions still to visit. The
statistics of a program count how often each kind is met on the walk.
-/
namespace BraceTemplate

namespace Instruction

mutual

def size : Instruction → Nat
  | within _ body => bodySize body + 1
  | ifDefined _ body => bodySize body + 1
  | forEach _ body => bodySize body + 1
  | _ => 1
termination_by structural i => i

def bodySize : List Instruction → Nat
  | [] => 0
  | i :: rest => size i + bodySize rest
termination_by structural b => b

end

theorem size_eq (i : Instruction) : i.size = bodySize i.body + 1 := by
  cases i <;> simp [size, body, bodySize]

@[simp] theorem bodySize_append (as bs : List Instruction) :
    bodySize (as ++ bs) = bodySize as + bodySize bs := by
  induction as with
  | nil => simp [bodySize]
  | cons a as ih => simp [bodySize, ih, Nat.add_assoc]

/-- Visits the instruction on top of the stack and puts its body in its place. -/
def walk : (stack : List Instruction) → List Instruction
  | [] => []
  | i :: stack => i :: walk (i.body ++ stack)
termination_by stack => bodySize stack
decreasing_by
  simp only [bodySize_append, bodySize, size_eq]
  omega

end Instruction

namespace Program

def walk (program : Program) : List Instruction := Instruction.walk program.body

def countKind (kind : Instruction.Kind) :
    List (Instruction.Kind × Nat) → List (Instruction.Kind × Nat)
  | [] => [(kind, 1)]
  | (k, n) :: rest => if k = kind then (k, n + 1) :: rest else (k, n) :: countKind kind rest

/-- How often each kind occurs, in the order in which the kinds are met. -/
def stats (program : Program) : List (Instruction.Kind × Nat) :=
  program.walk.foldl (fun counts i => countKind i.kind counts) []

end Program
end BraceTemplate
