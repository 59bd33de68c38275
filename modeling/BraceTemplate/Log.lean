import BraceTemplate.Text.Quoted
import BraceTemplate.Value.Printer

/-! # The debug log

Compiling and rendering report what they do as events. Which events a reader gets to see depends on
the level of the logger: debugging when the debug setting is a non-empty text, or else information
when asked to be verbose, or else warnings.
-/
namespace BraceTemplate

inductive Event where
  | registered (name : String)
  | dispatching (name : String)
  | compiled (instructions : Nat)
  | rendering (instructions : Nat)
  | rendered (characters : Nat)
deriving DecidableEq, Repr

namespace Event

inductive Origin
  | macros | compiler | renderer
deriving DecidableEq, Repr

def origin : Event → Origin
  | registered _ => .macros
  | dispatching _ => .compiler
  | compiled _ => .compiler
  | rendering _ => .renderer
  | rendered _ => .renderer

def message : Event → String
  | registered name => "Registered macro: " ++ name
  | dispatching name => "Dispatching macro " ++ Text.quoted name
  | compiled n => "Compiled template to " ++ Value.natText n ++ " instructions"
  | rendering n => "Rendering program with " ++ Value.natText n ++ " top-level instructions"
  | rendered n => "Rendered " ++ Value.natText n ++ " chars"

end Event

inductive Level
  | debug | info | warning
deriving DecidableEq, Repr

/-- A logger with the handlers it writes to; one that does not propagate keeps its records. -/
structure Logger where
  level : Level
  handlers : Nat
  propagates : Bool
deriving DecidableEq, Repr

/-- Setting up replaces whatever handlers there were by a single one. -/
def Logger.setUp (verbose : Bool) (debugSetting : Option String) : Logger where
  level :=
    if debugSetting.getD "" ≠ "" then .debug
    else if verbose then .info
    else .warning
  handlers := 1
  propagates := false

end BraceTemplate
