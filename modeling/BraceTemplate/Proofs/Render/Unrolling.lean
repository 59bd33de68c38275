import BraceTemplate.Proofs.Program.Every
import BraceTemplate.Proofs.Render.Actions

/-! # Unrolling a program against its data

Where the data is known, a loop can be written out as one scope for each entry of its collection, and a
conditional as its body or as nothing. What is unrolled inside a scope depends on the path of the scope,
so the path is carried along. The unrolled program has no loops and no conditionals, and rendering it
against the same data does what rendering the program does.
-/
namespace BraceTemplate

section Unroll
variable (data : Value)

mutual

/-- What the instruction comes to at a path of the data. -/
def Instruction.unroll : Instruction → (path : String) → Fragment
  | .within part body, path => [.within part (Fragment.unroll body (Path.compose path part))]
  | .ifDefined part body, path =>
    if (Path.resolve data (Path.compose path part)).isNull then [] else Fragment.unroll body path
  | .forEach part body, path =>
    let collection := Path.compose path part
    [.within part ((Path.entrySegments (Path.resolve data collection)).map fun segment =>
      .within segment (Fragment.unroll body (Path.compose collection segment)))]
  | i, _ => [i]
termination_by structural i => i

def Fragment.unroll : List Instruction → (path : String) → Fragment
  | [], _ => []
  | i :: rest, path => i.unroll path ++ Fragment.unroll rest path
termination_by structural body => body

end

end Unroll

/-- Neither a loop nor a conditional. -/
def Instruction.Straight (i : Instruction) : Prop := i.kind ≠ .forEach ∧ i.kind ≠ .ifDefined

/-- The program as it is unrolled from the root. Null data is an empty map here as in rendering. -/
def Program.unrolled (program : Program) (data : Value) : Program :=
  ⟨Fragment.unroll (Context.start data).data program.body ""⟩

section Unrolled
variable (data : Value)

theorem Fragment.every_scopes {p : Instruction → Prop} {bodies : String → Fragment}
    (hscope : ∀ path body, p (.within path body)) (hbodies : ∀ segment, (bodies segment).Every p)
    (segments : List String) :
    Fragment.Every p (segments.map fun segment => .within segment (bodies segment)) := by
  induction segments with
  | nil => exact .nil
  | cons segment segments ih => exact .cons (hscope _ _) (hbodies segment) ih

theorem Instruction.every_unroll {i : Instruction}
    (hbody : ∀ path, (Fragment.unroll data i.body path).Every Straight) (path : String) :
    (i.unroll data path).Every Straight := by
  have hscope (path : String) (body : Fragment) : Straight (.within path body) :=
    ⟨by simp [kind], by simp [kind]⟩
  cases i with
  | within part body => exact Fragment.every_singleton_iff.mpr ⟨hscope _ _, hbody _⟩
  | ifDefined part body =>
    rw [unroll]
    split
    · exact .nil
    · exact hbody path
  | forEach part body =>
    refine Fragment.every_singleton_iff.mpr ⟨hscope _ _, ?_⟩
    exact Fragment.every_scopes hscope (fun segment => hbody _) _
  | _ => exact Fragment.every_singleton_iff.mpr ⟨⟨by simp [kind], by simp [kind]⟩, .nil⟩

theorem Fragment.every_unroll (body : Fragment) (path : String) :
    (Fragment.unroll data body path).Every Instruction.Straight := by
  induction body using Fragment.induction generalizing path with
  | nil => exact .nil
  | cons i rest ihBody ihRest =>
    rw [unroll]
    exact every_append_iff.mpr ⟨Instruction.every_unroll data ihBody path, ihRest path⟩

theorem Fragment.actions_scopes (bodies : String → Fragment) (segments : List String)
    (path : String) :
    Fragment.actions data (segments.map fun segment => .within segment (bodies segment)) path =
      segments.flatMap fun segment =>
        Fragment.actions data (bodies segment) (Path.compose path segment) := by
  induction segments with
  | nil => rfl
  | cons segment segments ih =>
    rw [List.map_cons, actions, ih, List.flatMap_cons, Instruction.actions]

theorem Instruction.actions_unroll {i : Instruction}
    (hbody : ∀ path, Fragment.actions data (Fragment.unroll data i.body path) path =
      Fragment.actions data i.body path) (path : String) :
    Fragment.actions data (i.unroll data path) path = i.actions data path := by
  cases i with
  | within part body =>
    rw [unroll, Fragment.actions_singleton]
    exact hbody _
  | ifDefined part body =>
    rw [unroll, actions]
    split
    · rfl
    · exact hbody path
  | forEach part body =>
    rw [unroll, Fragment.actions_singleton, actions, Fragment.actions_scopes, actions]
    exact congrArg (List.flatMap · _) (funext fun segment => hbody _)
  | _ => exact Fragment.actions_singleton data _ path

theorem Fragment.actions_unroll (body : Fragment) (path : String) :
    Fragment.actions data (Fragment.unroll data body path) path =
      Fragment.actions data body path := by
  induction body using Fragment.induction generalizing path with
  | nil => rfl
  | cons i rest ihBody ihRest =>
    rw [unroll, actions_append, Instruction.actions_unroll data ihBody, ihRest, actions]

end Unrolled

example :
    Program.unrolled ⟨[.forEach "a" [.ifDefined "x" [.call "f"], .value "x"]]⟩
        (.map [(.text "a", .list [.map [], .map [(.text "x", .bool true)]])]) =
      ⟨[.within "a" [.within "0" [.value "x"], .within "1" [.call "f", .value "x"]]]⟩ := by rfl

end BraceTemplate
