import BraceTemplate.Proofs.Path.Composition
import BraceTemplate.Proofs.Render.Actions

/-! # Scopes that are opened at once

A scope with nothing in it but another scope can be opened at once, at the composed path. This is so
because composing paths is associative, except around the paths that mean the place where one stands.
Whatever the paths lead to in the data, the fused program takes the same actions, at any depth.
-/
namespace BraceTemplate

namespace Fragment

/-- `Fused body other`: some scopes in `body` that hold a single scope are one scope in `other`. -/
inductive Fused : (body other : Fragment) → Prop where
  | refl {body : Fragment} : Fused body body
  | trans {body middle other : Fragment} : Fused body middle → Fused middle other → Fused body other
  | cons {i : Instruction} {rest rest' : Fragment} :
    Fused rest rest' → Fused (i :: rest) (i :: rest')
  | within {part : String} {body body' rest : Fragment} :
    Fused body body' → Fused (.within part body :: rest) (.within part body' :: rest)
  | ifDefined {part : String} {body body' rest : Fragment} :
    Fused body body' → Fused (.ifDefined part body :: rest) (.ifDefined part body' :: rest)
  | forEach {part : String} {body body' rest : Fragment} :
    Fused body body' → Fused (.forEach part body :: rest) (.forEach part body' :: rest)
  | fuse {p q : String} {body rest : Fragment} :
    p ≠ "" → p ≠ Path.here → q ≠ "" → q ≠ Path.here →
      Fused (.within p [.within q body] :: rest) (.within (p ++ "." ++ q) body :: rest)

theorem Fused.length_eq {body other : Fragment} (h : Fused body other) :
    other.length = body.length := by
  induction h with
  | refl => rfl
  | trans _ _ ih ih' => exact ih'.trans ih
  | cons _ ih => exact congrArg (· + 1) ih
  | _ => rfl

theorem actions_within_within (data : Value) {p q : String} (hp : p ≠ "") (hp' : p ≠ Path.here)
    (hq : q ≠ "") (hq' : q ≠ Path.here) (body : Fragment) (path : String) :
    (Instruction.within p [.within q body]).actions data path =
      (Instruction.within (p ++ "." ++ q) body).actions data path := by
  rw [Instruction.actions, actions_singleton, Instruction.actions, Instruction.actions,
    Path.compose_assoc hp' (.inl hp), Path.compose_of_ne hp hq hq']

theorem Fused.actions_eq {body other : Fragment} (h : Fused body other) (data : Value)
    (path : String) : Fragment.actions data other path = Fragment.actions data body path := by
  induction h generalizing path with
  | refl => rfl
  | trans _ _ ih ih' => rw [ih', ih]
  | cons _ ih => rw [actions, actions, ih]
  | within _ ih => rw [actions, actions, Instruction.actions, Instruction.actions, ih]
  | ifDefined _ ih => rw [actions, actions, Instruction.actions, Instruction.actions, ih]
  | forEach _ ih =>
    rw [actions, actions, Instruction.actions, Instruction.actions]
    simp only [ih]
  | fuse hp hp' hq hq' => rw [actions, actions, actions_within_within data hp hp' hq hq']

theorem Fused.run_eq {body other : Fragment} (h : Fused body other)
    (functions : Table UserFunction) (context : Context) :
    Fragment.run functions other context = Fragment.run functions body context := by
  rw [Fragment.run_eq, Fragment.run_eq, emission_eq, emission_eq, h.actions_eq]

end Fragment

/-- Composing paths is associative below the root and for paths that lead somewhere. So a program with
scopes fused renders the same, with the same failure and the same log, and makes the same calls. -/
theorem Program.render_fused :
    (∀ path part last, part ≠ Path.here → part ≠ "" ∨ path ≠ "" →
      Path.compose (Path.compose path part) last = Path.compose path (Path.compose part last)) ∧
    ∀ program other : Program, Fragment.Fused program.body other.body →
      ∀ (functions : Table UserFunction) (data : Value),
        other.render functions data = program.render functions data ∧
        other.calls functions data = program.calls functions data := by
  refine ⟨fun path part last hpart hroot => Path.compose_assoc hpart hroot last, ?_⟩
  intro program other h functions data
  constructor
  · rw [render_eq_report, render_eq_report, h.run_eq, h.length_eq]
  · rw [calls, calls, h.actions_eq]

def pathFunctions : Table UserFunction :=
  .ofEntries [("f", .usable "f" fun path _ => ⟨[], .ok (.text path)⟩)]

/-- A loop that opens three scopes, one in the other. -/
def nestedLoop : Program :=
  ⟨[.forEach "a" [.within "b" [.within "c" [.within "d" [.call "f", .value ""]]]]]⟩

def fusedLoop : Program := ⟨[.forEach "a" [.within "b.c.d" [.call "f", .value ""]]]⟩

/-- The scopes of the loop lead to a value at the first of these entries only. -/
def sparseEntries : Value :=
  .map [(.text "a",
    .list [.map [(.text "b", .map [(.text "c", .object [("d", .int 1)])])], .null])]

theorem fused_nestedLoop : Fragment.Fused nestedLoop.body fusedLoop.body := by
  refine .forEach (.trans ?_ (.fuse (p := "b.c") (q := "d") ?_ ?_ ?_ ?_))
  · exact .fuse (p := "b") (q := "c") (by decide) (by decide) (by decide) (by decide)
  all_goals decide

/-- The function is called below both entries, also where the scopes lead to nothing. -/
theorem Program.render_fused_in_loop :
    ("b" ≠ Path.here ∧ ("b" ≠ "" ∨ "" ≠ "") ∧
      Path.compose (Path.compose "" "b") "c.." = Path.compose "" (Path.compose "b" "c..")) ∧
    Fragment.Fused nestedLoop.body fusedLoop.body ∧
    (fusedLoop.render pathFunctions sparseEntries).outcome = .ok "a.0.b.c.d1a.1.b.c.d" ∧
    fusedLoop.calls pathFunctions sparseEntries = [⟨"f", "a.0.b.c.d"⟩, ⟨"f", "a.1.b.c.d"⟩] := by
  have hpath : "b" ≠ Path.here := by decide
  have hroot : "b" ≠ "" ∨ "" ≠ "" := .inl (by decide)
  obtain ⟨hassoc, hrender⟩ := Program.render_fused
  obtain ⟨hsame, hcalls⟩ := hrender nestedLoop fusedLoop fused_nestedLoop pathFunctions sparseEntries
  refine ⟨⟨hpath, hroot, hassoc _ _ _ hpath hroot⟩, fused_nestedLoop, ?_, ?_⟩
  · rw [hsame, Program.outcome_render]
    rfl
  · rw [hcalls]
    rfl

end BraceTemplate
