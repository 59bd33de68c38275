import BraceTemplate.Render.Context

/-! # Running programs

The instructions of a body are run one after the other, and a failure ends the run. A conditional asks
for a value that is not null; a loop runs its body in a scope for each entry of a collection, in the
scope of the collection itself. A limit on digits makes a run fail at the first numeral it does not
admit, and is without effect on any other run.
-/
namespace BraceTemplate

section Limited
variable (limit : DigitLimit) (functions : Table UserFunction)

mutual

def Instruction.executeUnder : Instruction → Context → Run
  | .literal text, context => .done (context.emit text)
  | .value path, context => context.read limit (context.here path) (context.write limit)
  | .location path, context => .done (context.emit (context.here path))
  | .within path body, context => context.inScope (context.here path) (Fragment.runUnder body)
  | .ifDefined path body, context =>
    context.read limit (context.here path) fun value =>
      if value.isNull then .done context else Fragment.runUnder body context
  | .forEach path body, context =>
    context.inScope (context.here path) fun inner =>
      inner.read limit inner.path fun collection =>
        Context.atEntries limit inner.path (Fragment.runUnder body) (Path.entryKeys collection) inner
  | .call name, context => context.call limit functions name
  | .verbatim source, context => .done (context.emit source)
termination_by structural i => i

def Fragment.runUnder : List Instruction → Context → Run
  | [], context => .done context
  | i :: rest, context => (i.executeUnder context).andThen (Fragment.runUnder rest)
termination_by structural body => body

end

end Limited

def Instruction.execute (functions : Table UserFunction) (i : Instruction) : Context → Run :=
  i.executeUnder .unlimited functions

def Fragment.run (functions : Table UserFunction) (body : Fragment) : Context → Run :=
  Fragment.runUnder .unlimited functions body

/-- What a run of `length` instructions gives: its output, and its log between two events of its own. -/
def Run.report (run : Run) (length : Nat) : Traced String :=
  let events := .rendering length :: run.context.events.toList
  match run.outcome with
  | .ok _ => ⟨events ++ [.rendered run.context.output.length], .ok run.context.output⟩
  | .error failure => ⟨events, .error failure⟩

def Program.render (program : Program) (functions : Table UserFunction) (data : Value)
    (limit : DigitLimit := .unlimited) : Traced String :=
  (Fragment.runUnder limit functions program.body (.start data)).report program.body.length

section Unlimited
variable (functions : Table UserFunction)

theorem Instruction.execute_value (path : String) (context : Context) :
    (Instruction.value path).execute functions context =
      .done (context.emit (context.resolve (context.here path)).toText) := by
  rw [execute, executeUnder, Context.read_unlimited, Context.write_unlimited]

theorem Instruction.execute_ifDefined (path : String) (body : Fragment) (context : Context) :
    (Instruction.ifDefined path body).execute functions context =
      if (context.resolve (context.here path)).isNull then .done context
      else Fragment.run functions body context := by
  rw [execute, executeUnder, Context.read_unlimited]
  rfl

theorem Instruction.execute_forEach (path : String) (body : Fragment) (context : Context) :
    (Instruction.forEach path body).execute functions context =
      context.inScope (context.here path) fun inner =>
        Context.atEntries .unlimited inner.path (Fragment.run functions body)
          (Path.entryKeys (inner.resolve inner.path)) inner := by
  rw [execute, executeUnder]
  simp only [Context.read_unlimited]
  rfl

theorem Fragment.run_cons (i : Instruction) (rest : Fragment) (context : Context) :
    Fragment.run functions (i :: rest) context =
      (i.execute functions context).andThen (Fragment.run functions rest) := rfl

theorem Program.render_eq_report (program : Program) (data : Value) :
    program.render functions data =
      (Fragment.run functions program.body (.start data)).report program.body.length := rfl

end Unlimited
end BraceTemplate
