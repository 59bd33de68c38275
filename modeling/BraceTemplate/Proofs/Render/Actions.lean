import BraceTemplate.Proofs.Render.Emission

/-! # What a fragment does

At a path of the data a fragment does a list of actions: it emits texts, and it calls functions at paths.
Which actions these are, the data alone determines. The functions only answer the calls, and the first
call that fails is the last action that is done. So two fragments with the same actions emit the same
text, make the same calls and fail alike, whatever instructions they consist of.
-/
namespace BraceTemplate

structure Call where
  name : String
  path : String
deriving DecidableEq, Repr

inductive Action where
  | emit (text : String)
  | ask (call : Call)
deriving DecidableEq, Repr

section Actions
variable (data : Value)

mutual

def Instruction.actions : Instruction → (path : String) → List Action
  | .literal text, _ => [.emit text]
  | .value part, path => [.emit (Path.resolve data (Path.compose path part)).toText]
  | .location part, path => [.emit (Path.compose path part)]
  | .within part body, path => Fragment.actions body (Path.compose path part)
  | .ifDefined part body, path =>
    if (Path.resolve data (Path.compose path part)).isNull then []
    else Fragment.actions body path
  | .forEach part body, path =>
    let collection := Path.compose path part
    (Path.entrySegments (Path.resolve data collection)).flatMap fun segment =>
      Fragment.actions body (Path.compose collection segment)
  | .call name, path => [.ask ⟨name, path⟩]
  | .verbatim source, _ => [.emit source]
termination_by structural i => i

def Fragment.actions : List Instruction → (path : String) → List Action
  | [], _ => []
  | i :: rest, path => i.actions path ++ Fragment.actions rest path
termination_by structural body => body

end

theorem Fragment.actions_append (as bs : Fragment) (path : String) :
    Fragment.actions data (as ++ bs) path =
      Fragment.actions data as path ++ Fragment.actions data bs path := by
  induction as with
  | nil => rfl
  | cons i as ih => rw [List.cons_append, actions, ih, actions, List.append_assoc]

theorem Fragment.actions_singleton (i : Instruction) (path : String) :
    Fragment.actions data [i] path = i.actions data path := by
  rw [actions, actions, List.append_nil]

end Actions

section Answers
variable (functions : Table UserFunction) (data : Value)

/-- What the function that is called answers, if there is such a function. -/
def Call.answer? (call : Call) : Option (Traced Value) :=
  match functions.find? call.name with
  | some (.usable _ function) => some (function call.path data)
  | _ => none

theorem Call.exists_usable_of_answer? {call : Call} {answer : Traced Value}
    (h : call.answer? functions data = some answer) :
    ∃ label function, functions.find? call.name = some (.usable label function) ∧
      function call.path data = answer := by
  unfold answer? at h
  split at h
  · rename_i label function hfind
    exact ⟨label, function, hfind, Option.some.inj h⟩
  · cases h

def Call.events (call : Call) : List Event :=
  match call.answer? functions data with
  | some answer => answer.events
  | none => []

namespace Action

def emission : Action → Emission
  | emit text => .piece text
  | ask call => .ofCall functions call.name call.path data

/-- The calls that are made: those up to the first that fails, and that one, too, if there is a function
to call. -/
def calls : List Action → List Call
  | [] => []
  | emit _ :: rest => calls rest
  | ask call :: rest =>
    match call.answer? functions data with
    | none => []
    | some answer =>
      match answer.outcome with
      | .ok _ => call :: calls rest
      | .error _ => [call]

end Action

namespace Emission

def ofActions : List Action → Emission
  | [] => nothing
  | action :: rest => (action.emission functions data).andThen (ofActions rest)

theorem ofActions_singleton (action : Action) :
    ofActions functions data [action] = action.emission functions data := by
  rw [ofActions, ofActions, andThen_nothing]

theorem ofActions_append (as bs : List Action) :
    ofActions functions data (as ++ bs) =
      (ofActions functions data as).andThen (ofActions functions data bs) := by
  induction as with
  | nil => rfl
  | cons action as ih => rw [List.cons_append, ofActions, ih, ofActions, andThen_assoc]

theorem ofActions_flatMap (actions : String → List Action) (segments : List String) :
    ofActions functions data (segments.flatMap actions) =
      atEntries (fun segment => ofActions functions data (actions segment)) segments := by
  induction segments with
  | nil => rfl
  | cons segment segments ih => rw [List.flatMap_cons, ofActions_append, ih, atEntries]

theorem exists_ofCall_eq_fail {call : Call} (h : call.answer? functions data = none) :
    ∃ failure, ofCall functions call.name call.path data = fail failure := by
  unfold Call.answer? at h
  unfold ofCall
  split at h
  · cases h
  · rename_i husable
    split
    · exact ⟨_, rfl⟩
    · exact ⟨_, rfl⟩
    · exact ⟨_, rfl⟩
    · rename_i hfind
      exact absurd hfind (husable _ _)

theorem events_ofActions (actions : List Action) :
    (ofActions functions data actions).events =
      (Action.calls functions data actions).flatMap (Call.events functions data) := by
  induction actions with
  | nil => rfl
  | cons action rest ih =>
    cases action with
    | emit text =>
      rw [Action.calls, ← ih, ofActions]
      exact List.nil_append _
    | ask call =>
      rw [ofActions, Action.emission, Action.calls]
      cases hanswer : call.answer? functions data with
      | none =>
        obtain ⟨failure, hfail⟩ := exists_ofCall_eq_fail functions data hanswer
        rw [hfail]
        rfl
      | some answer =>
        have hevents : call.events functions data = answer.events := by rw [Call.events, hanswer]
        obtain ⟨label, function, hfind, rfl⟩ := Call.exists_usable_of_answer? functions data hanswer
        cases houtcome : (function call.path data).outcome with
        | ok value => simp [ofCall, hfind, andThen, houtcome, hevents, ih]
        | error failure => simp [ofCall, hfind, andThen, houtcome, hevents]

end Emission

theorem Instruction.emission_eq {i : Instruction}
    (hbody : ∀ path, Fragment.emission functions data i.body path =
      .ofActions functions data (Fragment.actions data i.body path)) (path : String) :
    i.emission functions data path = .ofActions functions data (i.actions data path) := by
  cases i with
  | literal text => exact (Emission.ofActions_singleton functions data (.emit text)).symm
  | value part => exact (Emission.ofActions_singleton functions data (.emit _)).symm
  | location part => exact (Emission.ofActions_singleton functions data (.emit _)).symm
  | verbatim source => exact (Emission.ofActions_singleton functions data (.emit source)).symm
  | call name => exact (Emission.ofActions_singleton functions data (.ask ⟨name, path⟩)).symm
  | within part body => exact hbody _
  | ifDefined part body =>
    rw [emission, actions]
    split
    · rfl
    · exact hbody path
  | forEach part body =>
    rw [emission, actions, Emission.ofActions_flatMap]
    exact congrArg (Emission.atEntries · _) (funext fun segment => hbody _)

theorem Fragment.emission_eq (body : Fragment) (path : String) :
    Fragment.emission functions data body path =
      .ofActions functions data (Fragment.actions data body path) := by
  induction body using Fragment.induction generalizing path with
  | nil => rfl
  | cons i rest ihBody ihRest =>
    rw [emission, actions, Emission.ofActions_append, Instruction.emission_eq functions data ihBody,
      ihRest]

theorem Fragment.events_run (body : Fragment) (context : Context) :
    (Fragment.run functions body context).context.events =
      context.events ++ (Action.calls functions context.data
        (Fragment.actions context.data body context.path)).flatMap
          (Call.events functions context.data) := by
  rw [run_eq, emission_eq, ← Emission.events_ofActions]
  rfl

end Answers

namespace Program
variable (functions : Table UserFunction) (data : Value)

def calls (program : Program) : List Call :=
  Action.calls functions (Context.start data).data
    (Fragment.actions (Context.start data).data program.body "")

theorem events_render (program : Program) :
    (program.render functions data).events =
      .rendering program.body.length ::
        ((program.calls functions data).flatMap (Call.events functions (Context.start data).data) ++
          match (program.render functions data).outcome with
          | .ok output => [.rendered output.length]
          | .error _ => []) := by
  have hcalls := congrArg Array.toList (Fragment.events_run functions program.body (.start data))
  have hfresh : (Context.start data).events = #[] := rfl
  have hroot : (Context.start data).path = "" := rfl
  rw [hfresh, hroot] at hcalls
  rw [render_eq_report, calls, Run.report]
  cases (Fragment.run functions program.body (.start data)).outcome with
  | ok done => simp [hcalls]
  | error failure => simp [hcalls]

theorem outcome_render_eq_of_actions {program other : Program}
    (h : Fragment.actions (Context.start data).data program.body "" =
      Fragment.actions (Context.start data).data other.body "") :
    (program.render functions data).outcome = (other.render functions data).outcome := by
  rw [outcome_render, outcome_render, Fragment.text, Fragment.text, Fragment.emission_eq,
    Fragment.emission_eq, h]

end Program
end BraceTemplate
