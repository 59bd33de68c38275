import BraceTemplate.Program.Basic

/-! # Properties of all instructions of a fragment

A property holds throughout a fragment when its instructions have it and it holds throughout their
bodies, that is, at every depth.
-/
namespace BraceTemplate.Fragment

inductive Every (p : Instruction → Prop) : Fragment → Prop where
  | nil : Every p []
  | cons {i : Instruction} {rest : Fragment} :
    p i → Every p i.body → Every p rest → Every p (i :: rest)

variable {p : Instruction → Prop}

@[simp] theorem every_nil : Every p [] := .nil

@[simp] theorem every_cons_iff {i : Instruction} {rest : Fragment} :
    Every p (i :: rest) ↔ p i ∧ Every p i.body ∧ Every p rest := by
  constructor
  · rintro (_ | ⟨hi, hbody, hrest⟩)
    exact ⟨hi, hbody, hrest⟩
  · rintro ⟨hi, hbody, hrest⟩
    exact .cons hi hbody hrest

theorem every_singleton_iff {i : Instruction} : Every p [i] ↔ p i ∧ Every p i.body := by
  rw [every_cons_iff]
  exact ⟨fun h => ⟨h.1, h.2.1⟩, fun h => ⟨h.1, h.2, .nil⟩⟩

theorem every_append_iff {as bs : Fragment} : Every p (as ++ bs) ↔ Every p as ∧ Every p bs := by
  induction as with
  | nil => exact ⟨fun h => ⟨.nil, h⟩, And.right⟩
  | cons i as ih =>
    rw [List.cons_append, every_cons_iff, every_cons_iff, ih]
    simp only [and_assoc]

theorem Every.mono {q : Instruction → Prop} {body : Fragment} (h : Every p body)
    (hpq : ∀ i, p i → q i) : Every q body := by
  induction h with
  | nil => exact .nil
  | cons hi _ _ ihBody ihRest => exact .cons (hpq _ hi) ihBody ihRest

end BraceTemplate.Fragment
