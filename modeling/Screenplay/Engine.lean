/-
The engine that runs programs: its options, its surroundings, its status, the trace and the result of a
run, and what it keeps from one run to the next.
-/
import Screenplay.Shortage
import Screenplay.Store

namespace Screenplay

/-! ## Options -/

/-- The budgets and switches of a run. -/
structure RunOptions where
  /-- the time allowed, in seconds -/
  maxSeconds : Float
  /-- the estimated memory allowed -/
  maxMemory : Int
  /-- whether the UI nodes visited are traced -/
  debug : Bool
  level : Level
  /-- the most changes kept -/
  maxHistory : Int
  /-- the most events traced -/
  maxEvents : Int
  /-- the most rounds of a loop -/
  maxRounds : Int
  /-- the highest risk of a program that is run -/
  maxRisk : Risk

/-- The options of a run that is given none. -/
def RunOptions.default : RunOptions :=
  ⟨10, 1024 * 1024, false, .strict, 100, 1000, Screenplay.maxRounds, .high⟩

/-! ## Surroundings -/

/-- What an engine meets outside of its runs, by the number of times that it has turned there before: at a
checkpoint, at a write, which others may listen to, and where it needs a text. -/
structure Surroundings where
  /-- the time that the run has taken, in seconds -/
  elapsed : Nat → Float
  /-- whether the end of the run is asked for -/
  cancels : Nat → Bool
  /-- the room on the call stack -/
  room : Room

/-- Surroundings in which hardly any time passes and nobody asks for the end of a run. -/
def Surroundings.quiet : Surroundings := ⟨fun _ => 1e-6, fun _ => false, .usual⟩

/-! ## Status and trace -/

/-- The status of an engine. -/
inductive RunStatus where
  | idle | initializing | running | completed | failed | timedOut | outOfMemory | cancelled
deriving Repr, DecidableEq, Inhabited

/-- The name of a status. -/
def RunStatus.name : RunStatus → String
  | idle => "idle"
  | initializing => "initializing"
  | running => "running"
  | completed => "completed"
  | failed => "failed"
  | timedOut => "timed_out"
  | outOfMemory => "out_of_memory"
  | cancelled => "cancelled"

/-- The status in which an error leaves a run. -/
def RunError.status : RunError → RunStatus
  | timedOut _ => .timedOut
  | outOfMemory .. => .outOfMemory
  | cancelled => .cancelled
  | _ => .failed

/-- The kinds of events. -/
inductive EventKind where
  | statusChanged | actionExecuted | stateUpdated | navigation | functionCalled | codeSkipped
  | unsupportedExpression | securityWarning | uiRendered | error
deriving Repr, DecidableEq, Inhabited

/-- The name of a kind of events. -/
def EventKind.name : EventKind → String
  | statusChanged => "status_changed"
  | actionExecuted => "action_executed"
  | stateUpdated => "state_updated"
  | navigation => "navigation"
  | functionCalled => "function_called"
  | codeSkipped => "code_skipped"
  | unsupportedExpression => "unsupported_expression"
  | securityWarning => "security_warning"
  | uiRendered => "ui_rendered"
  | error => "error"

/-- An entry of the trace. -/
structure Event where
  kind : EventKind
  detail : String
deriving Repr, DecidableEq

/-! ## Results -/

/-- The outcome of a run. A run that fails keeps what it did before. -/
structure RunResult where
  status : RunStatus
  values : Entries Value
  /-- the memory estimated for this run -/
  memory : Int
  events : List Event
  history : List Change
  navigations : List String
  error : Option RunError
  /-- the hits on the denylist that the run let through -/
  hits : List Hit

/-- Whether a run came to its end. -/
def RunResult.success (r : RunResult) : Bool := r.error.isNone

/-- Counters over all runs of an engine. -/
structure Statistics where
  runs : Nat
  completed : Nat
  failed : Nat
  lastStatus : RunStatus
  memory : Int
  «variables» : Nat
  changes : Nat
deriving Repr, DecidableEq

/-- Why a run breaks off without a result. -/
inductive Breakdown where
  /-- a number is too large to be compared -/
  | overflow
  /-- a text cannot be written -/
  | short (shortage : Shortage)
  /-- a store is to keep less than no changes -/
  | negativeHistory
  /-- a store is to keep more changes than can be counted -/
  | hugeHistory
deriving Repr, DecidableEq

/-- The wording of a breakdown. -/
def Breakdown.message : Breakdown → String
  | overflow => "int too large to convert to float"
  | short shortage => shortage.message
  | negativeHistory => "maxlen must be non-negative"
  | hugeHistory => "Python int too large to convert to C ssize_t"

/-! ## Engines -/

/-- An engine. -/
structure Engine where
  options : RunOptions
  guard : Guard
  /-- the store of all runs, if they share one -/
  shared : Option Store
  /-- the guard of the shared store, if that is not the guard of the engine -/
  storeGuard : Option Guard
  /-- whether the end of the run has been asked for -/
  cancelled : Bool
  status : RunStatus
  statistics : Statistics
  around : Surroundings
  /-- how many times it has turned to its surroundings -/
  contacts : Nat

/-- A store counts its changes below this bound. -/
def historyBound : Nat := Nat.pow 2 63

namespace Engine

/-- An engine that has run nothing yet, with a new store for every run, in quiet surroundings. -/
def ofOptions (options : RunOptions) : Engine :=
  ⟨options, .ofLevel options.level, none, none, false, .idle, ⟨0, 0, 0, .idle, 0, 0, 0⟩, .quiet, 0⟩

/-- A store as the options of an engine ask for. -/
def newStore (engine : Engine) : Except Breakdown Store :=
  if engine.options.maxHistory < -historyBound ∨ historyBound ≤ engine.options.maxHistory then
    .error .hugeHistory
  else if engine.options.maxHistory < 0 then .error .negativeHistory
  else .ok (.empty engine.options.maxHistory.toNat)

/-- The store that a run works on. -/
def storeForRun (engine : Engine) : Except Breakdown Store :=
  match engine.shared with
  | some store => .ok store
  | none => engine.newStore

/-- Asks for the end of the run. -/
def cancel (engine : Engine) : Engine := { engine with cancelled := true }

/-- Takes back that the end of the run was asked for. -/
def uncancel (engine : Engine) : Engine := { engine with cancelled := false }

/-- The guard that writes to a store have to pass. -/
def writeGuard (engine : Engine) : Guard := engine.storeGuard.getD engine.guard

/-- The engine after it has turned to its surroundings. -/
def contact (engine : Engine) : Engine := { engine with contacts := engine.contacts + 1 }

/-- The engine after it has turned to its surroundings and learned whether the end of the run is asked
for. -/
def inquire (engine : Engine) : Engine :=
  { engine.contact with cancelled := engine.cancelled || engine.around.cancels engine.contacts }

/-- The engine after a write. -/
def afterWrite (engine : Engine) (w : Write) : Engine :=
  let cancelled := engine.inquire.cancelled || w.cancels
  match engine.storeGuard with
  | some _ => { engine.inquire with storeGuard := some w.guard, cancelled }
  | none => { engine.inquire with guard := w.guard, cancelled }

end Engine

end Screenplay
