import BraceTemplate.Failure
import BraceTemplate.Log

/-! # Outcomes with their log -/
namespace BraceTemplate

/-- An outcome with the events reported on the way. -/
structure Traced (α : Type) where
  events : List Event
  outcome : Outcome α

namespace Traced

def fail {α : Type} (failure : Failure) : Traced α := ⟨[], .error failure⟩

def andThen {α β : Type} (first : Traced α) (next : α → Traced β) : Traced β :=
  match first.outcome with
  | .ok a => { next a with events := first.events ++ (next a).events }
  | .error failure => ⟨first.events, .error failure⟩

theorem outcome_andThen {α β : Type} {first : Traced α} {a : α} (h : first.outcome = .ok a)
    (next : α → Traced β) : (first.andThen next).outcome = (next a).outcome := by
  rw [andThen, h]

end Traced
end BraceTemplate
