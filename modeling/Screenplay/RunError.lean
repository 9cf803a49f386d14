/-
Errors that end a run, or the write of a single variable.
-/
import Screenplay.Expr
import Screenplay.Policy
import Screenplay.Violation

namespace Screenplay

/-- Why a run ends before its time. -/
inductive RunError where
  /-- a listener writes to the state that it listens to -/
  | listenerWrite (name : String)
  | cancelled
  /-- the time allowed, in seconds, is over -/
  | timedOut (seconds : Float)
  | outOfMemory (used allowed : Int)
  | undefinedScreen (name : String)
  /-- no such handler; a handler that was asked for by name tells its screen -/
  | undefinedHandler (name : String) (screen : Option String)
  | longTarget
  | manyArguments (count : Nat)
  | longArgument (length : Nat)
  | largeLoop
  | invalidRange (text : String)
  /-- an expression without a value -/
  | unsupported (expr : Expr)
  | refused (violation : Violation)

namespace RunError

/-- The wording of an expression without a value. -/
def unsupportedText (expr : Expr) : String := s!"Unsupported expression '{expr.text}'"

/-- The wording of an error. -/
def message : RunError → String
  | listenerWrite name => s!"State '{name}' modified from inside a change listener"
  | cancelled => "Execution cancelled"
  | timedOut seconds => s!"Execution exceeded {Decimal.text Value.floatStyle seconds}s"
  | outOfMemory used allowed => s!"Estimated memory {used} exceeded {allowed} bytes"
  | undefinedScreen name => s!"Undefined screen '{name}'"
  | undefinedHandler name none => s!"Undefined action '{name}'"
  | undefinedHandler name (some screen) => s!"Undefined action '{name}' in screen '{screen}'"
  | longTarget => "Navigation target too long"
  | manyArguments count => s!"Too many arguments: {count}"
  | longArgument length => s!"Argument too long: {length} > {maxArgument}"
  | largeLoop => "Loop body too large"
  | invalidRange text => s!"Invalid range format '{text}'"
  | unsupported expr => unsupportedText expr
  | refused violation => violation.message

/-- The kind of an error. -/
def kind : RunError → String
  | cancelled => "cancelled"
  | timedOut _ => "timeout"
  | outOfMemory .. => "memory_exceeded"
  | undefinedScreen _ | undefinedHandler .. => "undefined_variable"
  | refused violation => violation.kind.name
  | _ => "invalid_operation"

end RunError

end Screenplay
