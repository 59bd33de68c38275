import BraceTemplate.Render.Context

/-! # Open scopes

Scopes of a context that are opened and closed by hand nest like a stack. Closing a scope brings back
the path from before it was opened, whatever became of the path in between, and passes on how the
block in the scope ended.
-/
namespace BraceTemplate

/-- A context with the paths to come back to, that of the innermost scope first. -/
structure Scopes where
  context : Context
  saved : List String

namespace Scopes

def root (context : Context) : Scopes := ⟨context, []⟩

def enter (scopes : Scopes) (path : String) : Scopes :=
  ⟨scopes.context.moveTo path, scopes.context.path :: scopes.saved⟩

def descend (scopes : Scopes) (part : String) : Scopes :=
  scopes.enter (scopes.context.here part)

/-- Sets the path without opening a scope. -/
def assign (scopes : Scopes) (path : String) : Scopes :=
  { scopes with context := scopes.context.moveTo path }

/-- Closes the innermost scope, if one is open, with the outcome of its block. -/
def close (scopes : Scopes) (outcome : Outcome Unit) : Scopes × Outcome Unit :=
  match scopes.saved with
  | [] => (scopes, outcome)
  | path :: saved => (⟨scopes.context.moveTo path, saved⟩, outcome)

/-- What can be done by hand to a context and its scopes. -/
inductive Step where
  | enter (path : String)
  | descend (part : String)
  | close (outcome : Outcome Unit)
  | assign (path : String)
  /-- Asks for a path seen from here. -/
  | query (part : String)

inductive Reply where
  | nothing
  | path (path : String)
  /-- How the block of the scope ended, as the code around the scope gets to see it. -/
  | ended (outcome : Outcome Unit)

def perform (scopes : Scopes) : Step → Scopes × Reply
  | .enter path => (scopes.enter path, .path (scopes.enter path).context.path)
  | .descend part => (scopes.descend part, .path (scopes.descend part).context.path)
  | .close outcome => ((scopes.close outcome).1, .ended (scopes.close outcome).2)
  | .assign path => (scopes.assign path, .nothing)
  | .query part => (scopes, .path (scopes.context.here part))

def after (scopes : Scopes) (steps : List Step) : Scopes :=
  steps.foldl (fun scopes step => (scopes.perform step).1) scopes

/-- Ends the block of the innermost scope with the run that it has become, and closes the scope. -/
def endBlock (scopes : Scopes) (run : Run) : Run :=
  let (closed, outcome) := close { scopes with context := run.context } run.outcome
  ⟨closed.context, outcome⟩

@[simp] theorem after_cons (scopes : Scopes) (step : Step) (steps : List Step) :
    scopes.after (step :: steps) = (scopes.perform step).1.after steps := rfl

theorem after_append (scopes : Scopes) (steps others : List Step) :
    scopes.after (steps ++ others) = (scopes.after steps).after others := List.foldl_append

@[simp] theorem close_assign_enter (scopes : Scopes) (path assigned : String)
    (outcome : Outcome Unit) :
    ((scopes.enter path).assign assigned).close outcome = (scopes, outcome) := rfl

theorem inScope_eq_endBlock (scopes : Scopes) (path : String) (block : Context → Run) :
    scopes.context.inScope path block =
      (scopes.enter path).endBlock (block (scopes.enter path).context) := rfl

end Scopes
end BraceTemplate
