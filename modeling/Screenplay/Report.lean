/-
The report of a security analysis: what a program needs, what it touches, the warnings about it, its
weight, its quality and its risk.
-/
import Screenplay.Level
import Screenplay.Names

namespace Screenplay

/-- What is known about a program after its analysis. -/
structure Report where
  risk : Risk
  level : Level
  permissions : Names
  /-- the addresses of external resources -/
  resources : Names
  /-- the targets of all navigations -/
  targets : Names
  /-- the names of all functions called -/
  calls : Names
  imports : Names
  /-- the state variables bound, assigned or read -/
  accessed : Names
  /-- the bindings of inputs that ask for secrets -/
  sensitive : Names
  /-- the warnings in the order of their discovery, without repetition -/
  warnings : List String
  complexity : Nat
  quality : Nat
  /-- the number of UI nodes of all screens -/
  elements : Nat
deriving Repr, DecidableEq

namespace Report

/-- The quality: a hundred, less ten for each warning and five for each external resource. -/
def qualityOf (warnings resources : Nat) : Nat := 100 - 10 * warnings - 5 * resources

/-- Whether a program with this report may be called safe. -/
def isSafe (report : Report) : Bool := report.risk ≤ .medium

/-- The report about a program of which nothing is known but its risk. -/
def ofRisk (risk : Risk) : Report :=
  ⟨risk, .strict, [], [], [], [], [], [], [], [], 0, 100, 0⟩

end Report

end Screenplay
