/-
Failures: why a source text gives no program, or a program no artifact.
-/
import Screenplay.InputError
import Screenplay.ParseError
import Screenplay.Program.References
import Screenplay.Shortage
import Screenplay.Violation

namespace Screenplay

/-- The failure of a stage between a source text and an artifact. -/
inductive Failure where
  | parse (error : ParseError)
  | reference (error : ReferenceError)
  | refused (violation : Violation)
  | input (error : InputError)
  /-- a text that is needed on the way cannot be written -/
  | short (shortage : Shortage)
  /-- a parser that repeats itself without reading anything; no parser of this library does -/
  | stalled
deriving Repr, DecidableEq

namespace Failure

/-- The wording of a failure on one line, with its stage and its kind. -/
def summary : Failure → String
  | parse e => e.location.summary e.cause.kind e.message
  | reference e => s!"Reference error ({e.kind}): {e.message}"
  | refused v => s!"Security error ({v.kind.name}): {v.message}"
  | input e => s!"Invalid input: {e.message}"
  | short shortage => shortage.summary
  | stalled => "Internal error: no progress"

end Failure

end Screenplay
