import BraceTemplate.Proofs.Render.Emission
import BraceTemplate.Proofs.Table.Layers

/-! # Which function answers a call

A call is answered by the function that the last layer with its name binds, at the current path and for
the whole data. Rendering looks at functions in no other way, so two tables that answer alike render every
program alike.
-/
namespace BraceTemplate

/-- What a call emits for the answer it gets. -/
def Emission.ofAnswer (answer : Traced Value) : Emission :=
  match answer.outcome with
  | .ok value => ⟨[value.toText], answer.events, .ok ()⟩
  | .error failure => ⟨[], answer.events, .error failure⟩

namespace Table
variable {functions other : Table UserFunction} {layers : List (Table UserFunction)}

/-- Whether every call of the name emits what the function answers at the current path. -/
def AnswersBy (functions : Table UserFunction) (name : String) (function : UserFunction) : Prop :=
  ∀ context, (Instruction.call name).execute functions context =
    (Emission.ofAnswer (function context.path context.data)).runFrom context

/-- Whether every call of the name fails for want of a function. -/
def MissesCall (functions : Table UserFunction) (name : String) : Prop :=
  ∀ context, (Instruction.call name).execute functions context =
    .fail context (.unknownFunction name)

/-- Whether calls go by the last layer that has their name. -/
structure AnswersFrom (functions : Table UserFunction) (layers : List (Table UserFunction)) : Prop where
  layer : ∀ name entry, Frontmost layers name entry →
    ∃ label function, entry = .usable label function ∧ functions.AnswersBy name function
  unknown : ∀ name, (∀ table ∈ layers, name ∉ table.names) → functions.MissesCall name

theorem answersBy_of_find? {name label : String} {function : UserFunction}
    (h : functions.find? name = some (.usable label function)) : functions.AnswersBy name function := by
  intro context
  have hcall : Emission.ofCall functions name context.path context.data =
      Emission.ofAnswer (function context.path context.data) := by
    rw [Emission.ofCall, h]
    rfl
  rw [← hcall, Emission.runFrom_ofCall]
  rfl

theorem missesCall_of_find? {name : String} (h : functions.find? name = none) :
    functions.MissesCall name := by
  intro context
  have hcall : context.call .unlimited functions name = .fail context (.unknownFunction name) := by
    rw [Context.call, h]
  exact hcall

theorem Merges.answersFrom (hmerges : functions.Merges layers)
    (husable : ∀ table ∈ layers, table.Usable) : functions.AnswersFrom layers := by
  constructor
  · intro name entry hentry
    obtain ⟨label, function, rfl⟩ := hentry.usable husable
    exact ⟨label, function, rfl, answersBy_of_find? ((hmerges.find?_eq name _).mpr hentry)⟩
  · intro name hlayers
    exact missesCall_of_find? (hmerges.find?_eq_none hlayers)

theorem AnswersFrom.execute_call_eq (h : functions.AnswersFrom layers)
    (hother : other.AnswersFrom layers) (name : String) (context : Context) :
    (Instruction.call name).execute functions context = (Instruction.call name).execute other context := by
  rcases exists_frontmost_or layers name with ⟨entry, hentry⟩ | hlayers
  · obtain ⟨label, function, rfl, hanswers⟩ := h.layer name entry hentry
    obtain ⟨label', function', hsame, hanswers'⟩ := hother.layer name _ hentry
    cases hsame
    rw [hanswers, hanswers']
  · rw [h.unknown name hlayers, hother.unknown name hlayers]

end Table

section Runs
variable {functions other : Table UserFunction} {layers : List (Table UserFunction)}

theorem Instruction.execute_eq_of_calls
    (hcalls : ∀ name context, (Instruction.call name).execute functions context =
      (Instruction.call name).execute other context)
    {i : Instruction} (hbody : Fragment.run functions i.body = Fragment.run other i.body)
    (context : Context) : i.execute functions context = i.execute other context := by
  cases i with
  | call name => exact hcalls name context
  | within path body => exact congrArg (context.inScope (context.here path)) hbody
  | ifDefined path body =>
    rw [execute_ifDefined, execute_ifDefined]
    split
    · rfl
    · exact congrFun hbody context
  | forEach path body =>
    have hblock : Fragment.run functions body = Fragment.run other body := hbody
    rw [execute_forEach, execute_forEach, hblock]
  | _ => rfl

theorem Fragment.run_eq_of_calls
    (hcalls : ∀ name context, (Instruction.call name).execute functions context =
      (Instruction.call name).execute other context)
    (body : Fragment) : Fragment.run functions body = Fragment.run other body := by
  induction body using Fragment.induction with
  | nil => rfl
  | cons i rest ihBody ihRest =>
    funext context
    rw [run_cons, run_cons, Instruction.execute_eq_of_calls hcalls ihBody, ihRest]

theorem Table.AnswersFrom.render_eq (h : functions.AnswersFrom layers)
    (hother : other.AnswersFrom layers) (program : Program) (data : Value) :
    program.render functions data = program.render other data := by
  rw [Program.render_eq_report, Program.render_eq_report,
    Fragment.run_eq_of_calls (h.execute_call_eq hother)]

end Runs
end BraceTemplate
