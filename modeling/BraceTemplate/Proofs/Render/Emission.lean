import BraceTemplate.Render.Executor

/-! # What a fragment emits

Running a fragment changes a context in one way only: it writes pieces of text and events behind those
that are there. Which ones, and how the run ends, depends on the data and the current path alone.
This is the emission of the fragment, and it follows the instructions without any state.
-/
namespace BraceTemplate

structure Emission where
  pieces : List String
  events : List Event
  outcome : Outcome Unit

namespace Emission

def nothing : Emission := ⟨[], [], .ok ()⟩

def piece (text : String) : Emission := ⟨[text], [], .ok ()⟩

def fail (failure : Failure) : Emission := ⟨[], [], .error failure⟩

def andThen (first next : Emission) : Emission :=
  match first.outcome with
  | .ok _ => ⟨first.pieces ++ next.pieces, first.events ++ next.events, next.outcome⟩
  | .error _ => first

def atEntries (emit : String → Emission) : List String → Emission
  | [] => nothing
  | segment :: rest => (emit segment).andThen (atEntries emit rest)

def ofCall (functions : Table UserFunction) (name path : String) (data : Value) : Emission :=
  match functions.find? name with
  | none => fail (.unknownFunction name)
  | some .empty => fail (.unknownFunction name)
  | some (.inert _) => fail .notCallable
  | some (.usable _ function) =>
    let answer := function path data
    match answer.outcome with
    | .ok value => ⟨[value.toText], answer.events, .ok ()⟩
    | .error failure => ⟨[], answer.events, .error failure⟩

def result (emission : Emission) : Outcome String :=
  emission.outcome.map fun _ => String.join emission.pieces

/-- Writes behind what a context has already. -/
def runFrom (emission : Emission) (context : Context) : Run :=
  ⟨{ context with
    out := context.out ++ emission.pieces
    events := context.events ++ emission.events }, emission.outcome⟩

@[simp] theorem andThen_nothing (first : Emission) : first.andThen nothing = first := by
  obtain ⟨pieces, events, outcome⟩ := first
  cases outcome <;> simp [andThen, nothing]

theorem andThen_assoc (a b c : Emission) : (a.andThen b).andThen c = a.andThen (b.andThen c) := by
  obtain ⟨pieces, events, outcome⟩ := a
  obtain ⟨pieces', events', outcome'⟩ := b
  cases outcome with
  | error failure => rfl
  | ok _ => cases outcome' <;> simp [andThen]

theorem outcome_andThen {first next : Emission} (h : first.outcome = .ok ()) :
    (first.andThen next).outcome = next.outcome := by
  simp [andThen, h]

theorem result_andThen {first next : Emission} {text : String} :
    (first.andThen next).result = .ok text ↔
      ∃ x y, first.result = .ok x ∧ next.result = .ok y ∧ text = x ++ y := by
  obtain ⟨pieces, events, outcome⟩ := first
  obtain ⟨pieces', events', outcome'⟩ := next
  cases outcome with
  | error failure => simp [andThen, result, Except.map]
  | ok _ =>
    cases outcome' with
    | error failure => simp [andThen, result, Except.map]
    | ok _ => simp [andThen, result, Except.map, eq_comm]

@[simp] theorem runFrom_nothing (context : Context) : nothing.runFrom context = .done context := by
  simp [runFrom, nothing, Run.done]

theorem runFrom_piece (text : String) (context : Context) :
    (piece text).runFrom context = .done (context.emit text) := by
  simp [runFrom, piece, Run.done, Context.emit]

theorem runFrom_fail (failure : Failure) (context : Context) :
    (fail failure).runFrom context = .fail context failure := by
  simp [runFrom, fail, Run.fail]

theorem runFrom_ofCall (functions : Table UserFunction) (name : String) (context : Context) :
    (ofCall functions name context.path context.data).runFrom context =
      context.call .unlimited functions name := by
  unfold ofCall Context.call
  cases functions.find? name with
  | none => exact runFrom_fail _ _
  | some entry =>
    cases entry with
    | empty => exact runFrom_fail _ _
    | inert label => exact runFrom_fail _ _
    | usable label function =>
      simp only
      cases (function context.path context.data).outcome <;>
        simp [runFrom, Run.done, Run.fail, Context.emit]

theorem andThen_eq_runFrom {first next : Emission} {context : Context} {resume : Context → Run}
    (h : ∀ c, c.data = context.data → c.path = context.path → resume c = next.runFrom c) :
    (first.runFrom context).andThen resume = (first.andThen next).runFrom context := by
  obtain ⟨pieces, events, outcome⟩ := first
  cases outcome with
  | error failure => rfl
  | ok _ =>
    refine (h _ ?_ ?_).trans ?_
    · rfl
    · rfl
    · have happend {α : Type} (xs : Array α) (as bs : List α) : xs ++ as ++ bs = xs ++ (as ++ bs) :=
        Array.ext' (by simp)
      simp [runFrom, andThen, happend]

theorem inScope_eq_runFrom {context : Context} {path : String} {block : Context → Run}
    {emission : Emission}
    (h : block (context.moveTo path) = emission.runFrom (context.moveTo path)) :
    context.inScope path block = emission.runFrom context := by
  rw [Context.inScope, h]
  rfl

theorem atEntries_eq_runFrom {collection : String} {block : Context → Run} {data : Value}
    {emit : String → Emission}
    (h : ∀ context, context.data = data → block context = (emit context.path).runFrom context)
    (keys : List Value) {context : Context} (hdata : context.data = data) :
    Context.atEntries .unlimited collection block keys context =
      (atEntries (fun segment => emit (Path.compose collection segment))
        (keys.map Value.display)).runFrom context := by
  induction keys generalizing context with
  | nil => exact (runFrom_nothing context).symm
  | cons key keys ih =>
    have hfirst := h (context.moveTo (Path.compose collection key.display)) hdata
    rw [Context.atEntries, if_pos (Value.fits_unlimited key), inScope_eq_runFrom hfirst]
    apply andThen_eq_runFrom
    intro c hc _
    exact ih (hc.trans hdata)

end Emission

section Emissions
variable (functions : Table UserFunction) (data : Value)

mutual

def Instruction.emission : Instruction → (path : String) → Emission
  | .literal text, _ => .piece text
  | .value part, path => .piece (Path.resolve data (Path.compose path part)).toText
  | .location part, path => .piece (Path.compose path part)
  | .within part body, path => Fragment.emission body (Path.compose path part)
  | .ifDefined part body, path =>
    if (Path.resolve data (Path.compose path part)).isNull then .nothing
    else Fragment.emission body path
  | .forEach part body, path =>
    let collection := Path.compose path part
    Emission.atEntries (fun segment => Fragment.emission body (Path.compose collection segment))
      (Path.entrySegments (Path.resolve data collection))
  | .call name, path => .ofCall functions name path data
  | .verbatim source, _ => .piece source
termination_by structural i => i

def Fragment.emission : List Instruction → (path : String) → Emission
  | [], _ => .nothing
  | i :: rest, path => (i.emission path).andThen (Fragment.emission rest path)
termination_by structural body => body

end

def Fragment.text (body : Fragment) (path : String) : Outcome String :=
  (Fragment.emission functions data body path).result

end Emissions

section Runs
variable {functions : Table UserFunction}

theorem Instruction.execute_eq {i : Instruction}
    (hbody : ∀ context : Context, Fragment.run functions i.body context =
      (Fragment.emission functions context.data i.body context.path).runFrom context)
    (context : Context) :
    i.execute functions context =
      (i.emission functions context.data context.path).runFrom context := by
  cases i with
  | literal text => exact (Emission.runFrom_piece text context).symm
  | value part => exact (execute_value functions part context).trans (Emission.runFrom_piece _ context).symm
  | location part => exact (Emission.runFrom_piece _ context).symm
  | verbatim source => exact (Emission.runFrom_piece source context).symm
  | call name => exact (Emission.runFrom_ofCall functions name context).symm
  | within part body => exact Emission.inScope_eq_runFrom (hbody _)
  | ifDefined part body =>
    rw [execute_ifDefined, emission, Context.resolve, Context.here]
    by_cases hnull : (Path.resolve context.data (Path.compose context.path part)).isNull = true
    · rw [if_pos hnull, if_pos hnull, Emission.runFrom_nothing]
    · rw [if_neg hnull, if_neg hnull]
      exact hbody context
  | forEach part body =>
    rw [execute_forEach]
    apply Emission.inScope_eq_runFrom
    exact Emission.atEntries_eq_runFrom (fun c hc => hc ▸ hbody c) _ rfl

/-- A run writes the emission of its fragment, and that is all it does. -/
theorem Fragment.run_eq (body : Fragment) (context : Context) :
    Fragment.run functions body context =
      (Fragment.emission functions context.data body context.path).runFrom context := by
  induction body using Fragment.induction generalizing context with
  | nil => exact (Emission.runFrom_nothing context).symm
  | cons i rest ihBody ihRest =>
    rw [Fragment.run_cons, Instruction.execute_eq ihBody]
    -- the rest runs in the context that the instruction left, which has the data and the path still
    apply Emission.andThen_eq_runFrom
    intro c hdata hpath
    rw [ihRest, hdata, hpath]

theorem Program.outcome_render (program : Program) (data : Value) :
    (program.render functions data).outcome =
      Fragment.text functions (Context.start data).data program.body "" := by
  have hpath : (Context.start data).path = "" := rfl
  rw [Program.render_eq_report, Fragment.run_eq, Fragment.text, hpath]
  generalize Fragment.emission functions (Context.start data).data program.body "" = emission
  obtain ⟨pieces, events, outcome⟩ := emission
  cases outcome <;>
    simp [Emission.runFrom, Emission.result, Except.map, Context.output, Context.start, Run.report]

end Runs

section Sequences
variable (functions : Table UserFunction) (data : Value)

theorem Fragment.emission_append (as bs : Fragment) (path : String) :
    Fragment.emission functions data (as ++ bs) path =
      (Fragment.emission functions data as path).andThen
        (Fragment.emission functions data bs path) := by
  induction as with
  | nil => rfl
  | cons i as ih =>
    rw [List.cons_append, Fragment.emission, ih, Fragment.emission, Emission.andThen_assoc]

theorem Fragment.text_append_iff {as bs : Fragment} {path text : String} :
    Fragment.text functions data (as ++ bs) path = .ok text ↔
      ∃ x y, Fragment.text functions data as path = .ok x ∧
        Fragment.text functions data bs path = .ok y ∧ text = x ++ y := by
  rw [Fragment.text, Fragment.emission_append]
  exact Emission.result_andThen

end Sequences
end BraceTemplate
