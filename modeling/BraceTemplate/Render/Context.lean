import BraceTemplate.Path.Resolve
import BraceTemplate.Program.Basic
import BraceTemplate.Table.Basic
import BraceTemplate.Traced

/-! # The state of one rendering

A context holds the data, the current path and the pieces of text emitted so far. A scope sets the
current path for a block and sets it back afterwards, whether the block ends well or fails.
-/
namespace BraceTemplate

/-- A function of the user is assumed to answer from the path and the data alone, the same answer each time,
and to leave the data as they are. -/
abbrev UserFunction := (path : String) → (data : Value) → Traced Value

structure Context where
  data : Value
  path : String
  out : Array String
  events : Array Event

/-- The context in which a run ends, and how it ends. -/
structure Run where
  context : Context
  outcome : Outcome Unit

namespace Run

def done (context : Context) : Run := ⟨context, .ok ()⟩

def fail (context : Context) (failure : Failure) : Run := ⟨context, .error failure⟩

def andThen (run : Run) (next : Context → Run) : Run :=
  match run.outcome with
  | .ok _ => next run.context
  | .error _ => run

end Run

namespace Context

/-- Null data is rendered as an empty map. -/
def start (data : Value) : Context :=
  ⟨match data with
    | .null => .map []
    | data => data, "", #[], #[]⟩

def here (context : Context) (part : String) : String := Path.compose context.path part

def resolve (context : Context) (path : String) : Value := Path.resolve context.data path

def moveTo (context : Context) (path : String) : Context := { context with path := path }

def emit (context : Context) (text : String) : Context :=
  { context with out := context.out.push text }

/-- Runs a block at a path and comes back to the current one. -/
def inScope (context : Context) (path : String) (block : Context → Run) : Run :=
  let run := block (context.moveTo path)
  { run with context := run.context.moveTo context.path }

/-- Goes on with the value at a path, if the limit lets the path be resolved. -/
def read (context : Context) (limit : DigitLimit) (path : String) (next : Value → Run) : Run :=
  if Path.readable limit context.data path then next (context.resolve path)
  else .fail context .tooManyDigits

def write (context : Context) (limit : DigitLimit) (value : Value) : Run :=
  if value.fits limit then .done (context.emit value.toText) else .fail context .tooManyDigits

/-- Runs a block at each entry of the collection at `collection`. The segment of an entry is written when
its turn comes. -/
def atEntries (limit : DigitLimit) (collection : String) (block : Context → Run) :
    List Value → Context → Run
  | [], context => .done context
  | key :: rest, context =>
    if key.fits limit then
      (context.inScope (Path.compose collection key.display) block).andThen
        (atEntries limit collection block rest)
    else .fail context .tooManyDigits

def call (context : Context) (limit : DigitLimit) (functions : Table UserFunction)
    (name : String) : Run :=
  match functions.find? name with
  | none => .fail context (.unknownFunction name)
  | some .empty => .fail context (.unknownFunction name)
  | some (.inert _) => .fail context .notCallable
  | some (.usable _ function) =>
    let answer := function context.path context.data
    let context := { context with events := context.events ++ answer.events }
    match answer.outcome with
    | .ok value => context.write limit value
    | .error failure => .fail context failure

def output (context : Context) : String := String.join context.out.toList

@[simp] theorem read_unlimited (context : Context) (path : String) (next : Value → Run) :
    context.read .unlimited path next = next (context.resolve path) := by
  simp [read]

@[simp] theorem write_unlimited (context : Context) (value : Value) :
    context.write .unlimited value = .done (context.emit value.toText) := by
  simp [write]

@[simp] theorem path_moveTo (context : Context) (path : String) :
    (context.moveTo path).path = path := rfl

@[simp] theorem moveTo_moveTo (context : Context) (path path' : String) :
    (context.moveTo path).moveTo path' = context.moveTo path' := rfl

end Context
end BraceTemplate
