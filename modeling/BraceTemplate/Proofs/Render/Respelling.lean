import BraceTemplate.Proofs.Path.Composition
import BraceTemplate.Proofs.Program.Every
import BraceTemplate.Proofs.Render.Actions
import BraceTemplate.Proofs.Render.Concatenation

/-! # Two spellings of the current path

The empty path and the path `.` both mean the place where one stands. Writing the one for the other in an
instruction makes no difference to what is emitted, except for scopes that are opened at the root. There
the empty path is composed to `.`, and what is looked up behind this dot is not found; the path `.` stays
at the root. Below the root, and in instructions that open no scope, the two spellings are the same.
-/
namespace BraceTemplate

namespace Path

/-- Whether `other` is `path`, or `.` in place of the empty path. -/
def Respells (path other : String) : Prop := other = path ∨ path = "" ∧ other = here

variable {path part other : String}

theorem Respells.compose_eq (h : Respells part other) (hpath : path ≠ "") :
    compose path other = compose path part := by
  rcases h with rfl | ⟨rfl, rfl⟩
  · rfl
  · rw [compose_here, compose_empty_right hpath]

theorem Respells.resolve_eq (h : Respells part other) (data : Value) (path : String) :
    resolve data (compose path other) = resolve data (compose path part) := by
  by_cases hpath : path = ""
  · subst hpath
    rcases h with rfl | ⟨rfl, rfl⟩
    · rfl
    · rw [compose_here, resolve_empty, compose_empty_empty, resolve_here]
  · rw [h.compose_eq hpath]

end Path

namespace Fragment

/-- `Respelled atRoot body other`: some empty paths of `body` are written `.` in `other`. Where the
instructions may run at the root, a scope keeps its path; inside it one may still be at the root only if
this path is `.`. -/
inductive Respelled : (atRoot : Prop) → (body other : Fragment) → Prop where
  | nil {atRoot : Prop} : Respelled atRoot [] []
  | keep {atRoot : Prop} {i : Instruction} {rest rest' : Fragment} :
    Respelled atRoot rest rest' → Respelled atRoot (i :: rest) (i :: rest')
  | value {atRoot : Prop} {part part' : String} {rest rest' : Fragment} :
    Path.Respells part part' → Respelled atRoot rest rest' →
      Respelled atRoot (.value part :: rest) (.value part' :: rest')
  | ifDefined {atRoot : Prop} {part part' : String} {body body' rest rest' : Fragment} :
    Path.Respells part part' → Respelled atRoot body body' → Respelled atRoot rest rest' →
      Respelled atRoot (.ifDefined part body :: rest) (.ifDefined part' body' :: rest')
  | within {atRoot : Prop} {part part' : String} {body body' rest rest' : Fragment} :
    Path.Respells part part' → (atRoot → part' = part) →
      Respelled (atRoot ∧ part = Path.here) body body' → Respelled atRoot rest rest' →
        Respelled atRoot (.within part body :: rest) (.within part' body' :: rest')
  | forEach {atRoot : Prop} {part part' : String} {body body' rest rest' : Fragment} :
    Path.Respells part part' → (atRoot → part' = part) →
      Respelled (atRoot ∧ part = Path.here) body body' → Respelled atRoot rest rest' →
        Respelled atRoot (.forEach part body :: rest) (.forEach part' body' :: rest')

theorem compose_respelled {atRoot : Prop} {path part part' : String} (hpart : Path.Respells part part')
    (hkeep : atRoot → part' = part) (hroot : path = "" → atRoot) :
    Path.compose path part' = Path.compose path part := by
  by_cases hpath : path = ""
  · rw [hkeep (hroot hpath)]
  · exact hpart.compose_eq hpath

/-- A scope is at the root only if it is opened there by the path `.`. -/
theorem root_compose {atRoot : Prop} {path part : String} (hroot : path = "" → atRoot)
    (hscope : Path.compose path part = "") : atRoot ∧ part = Path.here :=
  (Path.compose_eq_empty_iff.mp hscope).imp_left hroot

/-- Respelled instructions do the same, at the root too if they are respelled for it. -/
theorem Respelled.actions_eq (data : Value) {atRoot : Prop} {body other : Fragment}
    (h : Respelled atRoot body other) {path : String} (hroot : path = "" → atRoot) :
    Fragment.actions data other path = Fragment.actions data body path := by
  induction h generalizing path with
  | nil => rfl
  | keep _ ih => rw [actions, actions, ih hroot]
  | value hpart _ ih =>
    rw [actions, actions, Instruction.actions, Instruction.actions, hpart.resolve_eq, ih hroot]
  | ifDefined hpart _ _ ihBody ihRest =>
    rw [actions, actions, Instruction.actions, Instruction.actions, hpart.resolve_eq,
      ihBody hroot, ihRest hroot]
  | within hpart hkeep _ _ ihBody ihRest =>
    have hscope := compose_respelled hpart hkeep hroot
    rw [actions, actions, Instruction.actions, Instruction.actions, hscope,
      ihBody (root_compose hroot), ihRest hroot]
  | forEach hpart hkeep _ _ ihBody ihRest =>
    have hscope := compose_respelled hpart hkeep hroot
    rw [actions, actions, Instruction.actions, Instruction.actions, hscope, ihRest hroot]
    refine congrArg (List.flatMap · _ ++ _) (funext fun segment => ?_)
    -- an entry is at the root only if the collection is
    exact ihBody fun hentry => root_compose hroot (Path.compose_eq_empty_iff.mp hentry).1

end Fragment

/-- A program renders alike in both spellings, if its scopes at the root keep theirs. -/
theorem Program.render_respelled {program other : Program}
    (h : Fragment.Respelled True program.body other.body) (functions : Table UserFunction)
    (data : Value) :
    (other.render functions data).outcome = (program.render functions data).outcome := by
  apply outcome_render_eq_of_actions
  exact h.actions_eq _ fun _ => trivial

/-- At the root the test is respelled, but not the scopes; inside a loop over a key, the scope is, and so
is the value in it. -/
theorem Program.render_respelled_in_loop :
    Fragment.Respelled True
      [.ifDefined "" [.forEach "a" [.within "" [.value "x"], .forEach "" [.value ""]]]]
      [.ifDefined "." [.forEach "a" [.within "." [.value "x"], .forEach "." [.value "."]]]] ∧
    (Program.render ⟨[.ifDefined "." [.forEach "a" [.within "." [.value "x"],
        .forEach "." [.value "."]]]]⟩ .empty
      (.map [(.text "a", .list [.map [(.text "x", .text "1"), (.text "y", .text "2")]])])).outcome =
        .ok "112" ∧
    (Program.render ⟨[.ifDefined "" [.forEach "a" [.within "" [.value "x"],
        .forEach "" [.value ""]]]]⟩ .empty
      (.map [(.text "a", .list [.map [(.text "x", .text "1"), (.text "y", .text "2")]])])).outcome =
        .ok "112" := by
  have hspelling : Path.Respells "" "." := .inr ⟨rfl, rfl⟩
  have hbelow {part : String} (h : True ∧ "a" = Path.here) : "." = part := absurd h.2 (by decide)
  have hbodies : Fragment.Respelled True
      [.ifDefined "" [.forEach "a" [.within "" [.value "x"], .forEach "" [.value ""]]]]
      [.ifDefined "." [.forEach "a" [.within "." [.value "x"], .forEach "." [.value "."]]]] := by
    refine .ifDefined hspelling (.forEach (.inl rfl) (fun _ => rfl) ?_ .nil) .nil
    exact .within hspelling hbelow (.keep .nil)
      (.forEach hspelling hbelow (.value hspelling .nil) .nil)
  have hrender : (Program.render ⟨[.ifDefined "" [.forEach "a" [.within "" [.value "x"],
        .forEach "" [.value ""]]]]⟩ .empty
      (.map [(.text "a", .list [.map [(.text "x", .text "1"), (.text "y", .text "2")]])])).outcome =
        .ok "112" := by
    rw [outcome_render]
    rfl
  exact ⟨hbodies, (render_respelled hbodies _ _).trans hrender, hrender⟩

/-- A scope that the empty path opens at the root finds nothing, in a program and in a template. -/
theorem Program.render_root_scope_differs :
    Fragment.Every (fun i => i.kind ≠ .location ∧ i.kind ≠ .call) [.within "" [.value "x"]] ∧
    Fragment.Respelled False [.within "" [.value "x"]] [.within "." [.value "x"]] ∧
    (Program.render ⟨[.within "" [.value "x"]]⟩ .empty (.map [(.text "x", .text "1")])).outcome =
      .ok "" ∧
    (Program.render ⟨[.within "." [.value "x"]]⟩ .empty (.map [(.text "x", .text "1")])).outcome =
      .ok "1" ∧
    (renderTemplate (.text "\x7b-> \x7b. x\x7d\x7d") (.map [(.text "x", .text "1")]) []).outcome =
      .ok "" ∧
    (renderTemplate (.text "\x7b. x\x7d") (.map [(.text "x", .text "1")]) []).outcome =
      .ok "1" := by
  have hscope := (renderTemplate_eq_ok_iff (List.forall_mem_nil _) Options.ofLayers_nil
    "\x7b-> \x7b. x\x7d\x7d" "" (.map [(.text "x", .text "1")])).mpr
      ⟨.nest "" (.nest "-> " (.text ". x") (.text "")) (.text ""), [.within "" [.value "x"]], by rfl,
        by rfl, by rfl⟩
  have hvalue := (renderTemplate_eq_ok_iff (List.forall_mem_nil _) Options.ofLayers_nil
    "\x7b. x\x7d" "1" (.map [(.text "x", .text "1")])).mpr
      ⟨.nest "" (.text ". x") (.text ""), [.value "x"], by rfl, by rfl, by rfl⟩
  refine ⟨?_, ?_, by rfl, by rfl, hscope, hvalue⟩
  · exact Fragment.every_singleton_iff.mpr ⟨by decide, Fragment.every_singleton_iff.mpr
      ⟨by decide, .nil⟩⟩
  · exact .within (.inr ⟨rfl, rfl⟩) False.elim (.keep .nil) .nil

end BraceTemplate
