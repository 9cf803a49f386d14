/-
Running a program: its acceptance, the declared state, the entry screen, and the walk over its UI tree,
which presses every button that can be seen. Actions are interpreted; functions are only recorded.
Budgets are checked before every action and after every node.
-/
import Screenplay.Engine
import Screenplay.Expr.Evaluation
import Screenplay.Program.Checks
import Screenplay.Range

namespace Screenplay

/-! ## The state of a run -/

/-- What changes during a run. -/
structure RunState where
  engine : Engine
  store : Store
  /-- the memory estimated before the run -/
  baseline : Int
  events : List Event
  navigations : List String
  heard : List Delivery

namespace RunState

/-- Traces an event, unless there are too many already. -/
def log (s : RunState) (kind : EventKind) (detail : String) : RunState :=
  if s.engine.options.maxEvents ≤ s.events.length then s
  else { s with events := s.events ++ [⟨kind, detail⟩] }

/-- Enters a status. -/
def setStatus (s : RunState) (status : RunStatus) : RunState :=
  { s with engine := { s.engine with status } }.log .statusChanged status.name

end RunState

/-- Why a run stops. -/
inductive Halt where
  | error (error : RunError)
  | breakdown (breakdown : Breakdown)

/-- A part of a run. When it stops, it still leaves a state behind. -/
abbrev Run := ExceptT Halt (StateM RunState)

namespace Run

/-! ## Basic steps -/

/-- Stops with an error. -/
def stop {α : Type} (e : RunError) : Run α := throw (.error e)

/-- The options of the run. -/
def options : Run RunOptions := return (← get).engine.options

/-- The value of a variable at this point. -/
def look : Run (String → Option Value) := return (← get).store.get?

/-- Traces an event, unless there are too many already. -/
def log (kind : EventKind) (detail : String) : Run Unit := modify (·.log kind detail)

/-- Enters a status. -/
def setStatus (status : RunStatus) : Run Unit := modify (·.setStatus status)

/-- Applies checks of the engine's guard. -/
def settle (outcome : Except Violation Unit × Guard) : Run Unit := do
  modify fun s => { s with engine := { s.engine with guard := outcome.2 } }
  match outcome.1 with
  | .ok () => return ()
  | .error violation => stop (.refused violation)

/-- Applies checks. -/
def check (checks : List Check) : Run Unit := do settle ((← get).engine.guard.check checks)

/-- Refuses a construct that is nested too deeply. -/
def checkDepth (entity : String) (depth : Nat) : Run Unit :=
  if maxDepth < depth then stop (.refused (.limit entity depth maxDepth)) else return ()

/-- Adds to the estimate of the memory used. -/
def track (amount : Nat) : Run Unit :=
  modify fun s => { s with store := s.store.track amount }

/-- Breaks the run off if something runs out. -/
def require (shortage : Option Shortage) : Run Unit :=
  match shortage with
  | some shortage => throw (.breakdown (.short shortage))
  | none => return ()

/-- Breaks the run off if a text that is needed cannot be written in the room that there is. -/
def express (shortage : Nat → Option Shortage) : Run Unit := do
  let s ← get
  set { s with engine := s.engine.contact }
  require (shortage (s.engine.around.room s.engine.contacts))

/-- Stops if the end of the run has been asked for, or if a budget is exceeded. The clock is read for
it. -/
def checkpoint : Run Unit := do
  let s ← get
  set { s with engine := s.engine.inquire }
  let options := s.engine.options
  let used := s.store.memory - s.baseline
  if s.engine.inquire.cancelled then stop .cancelled
  if options.maxSeconds < s.engine.around.elapsed s.engine.contacts then stop (.timedOut options.maxSeconds)
  if options.maxMemory < used then
    require ((Value.wholeShortage? used).or (Value.wholeShortage? options.maxMemory))
    stop (.outOfMemory used options.maxMemory)

/-- Writes a variable. -/
def write (name : String) (value : Value) : Run Unit := do
  let s ← get
  let w := s.store.set s.engine.writeGuard name value
  set { s with store := w.store, engine := s.engine.afterWrite w, heard := s.heard ++ w.heard }
  match w.result with
  | .ok _ =>
    express (value.displayShortage? ·)
    log .stateUpdated s!"{name} = {value.display}"
  | .error e => stop e

/-- Writes a variable that has no value yet. -/
def writeMissing (name : String) (value : Value) : Run Unit := do
  unless (← get).store.has name do write name value

/-- Writes those of some declared variables that have no value yet. -/
def seed : List StateVar → Run Unit
  | [] => return ()
  | v :: vs => do
    writeMissing v.name v.value
    seed vs

/-! ## Actions without blocks -/

/-- The text of an argument, which is bounded and checked. -/
def argument (arg : Expr) : Run String := do
  let look ← look
  express (arg.argumentShortage? look ·)
  let text := arg.argumentText look
  if maxArgument < text.length then stop (.longArgument text.length)
  check [.text text "call argument"]
  return text

/-- The texts of some arguments. -/
def arguments : List Expr → Run (List String)
  | [] => return []
  | arg :: args => return (← argument arg) :: (← arguments args)

/-- Records a navigation. -/
def navigate (n : Navigation) : Run Unit := do
  if maxTarget < n.target.length then stop .longTarget
  check [.text n.target "navigation target"]
  discard (arguments n.args)
  modify fun s => { s with navigations := s.navigations ++ [n.target] }
  log .navigation n.target

/-- Assigns to a variable. An expression without a value leaves the variable as it is. -/
def update (name : String) (expr : Expr) (source : String) : Run Unit := do
  let look ← look
  express (expr.valueShortage? look ·)
  match expr.evaluate look with
  | .error e =>
    log .unsupportedExpression s!"{name} = {source}: {RunError.unsupportedText e.expr}"
  | .ok value =>
    if let .text text := value then check (Check.string text s!"value of '{name}'")
    write name value

/-- Records a call; no function is called. -/
def call (function : String) (args : List Expr) : Run Unit := do
  check [.text function "function call"]
  if maxArguments < args.length then stop (.manyArguments args.length)
  let texts ← arguments args
  log .functionCalled (function ++ "(" ++ Text.join ", " texts ++ ")")

/-- Records raw code, which is not run. -/
def skipCode (text : String) : Run Unit := do
  check (Check.string text "action code")
  log .codeSkipped (String.ofList (text.toList.take 80))

/-! ## Actions with blocks -/

/-- Whether a condition holds. -/
def holds (condition : Expr) : Run Bool := do
  match condition.holds (← look) with
  | .ok b => return b
  | .error .overflow => throw (.breakdown .overflow)

/-- Runs some rounds of a loop, for one number after the other. -/
def rounds (name : String) (body : Run Unit) : Nat → Int → Run Unit
  | 0, _ => return ()
  | n + 1, i => do
    checkpoint
    write name (.int i)
    body
    rounds name body n (i + 1)

/-- Runs a loop. The number of its rounds is bounded. -/
def loop (name range : String) (size : Nat) (body : Run Unit) : Run Unit := do
  if maxLoopBody < size then stop .largeLoop
  match Range.ofText? range with
  | none => stop (.invalidRange range)
  | some r => rounds name body (min r.length (← options).maxRounds).toNat r.low

mutual

/-- Runs an action of a block at some depth of nesting. -/
def action (depth : Nat) : Action → Run Unit
  | .navigate navigation => navigate navigation
  | .update name value source => update name value source
  | .call function args => call function args
  | .branch condition thenActions elseActions => do
    if ← holds condition then
      checkDepth "action nesting depth" (depth + 1)
      actions (depth + 1) thenActions
    else
      checkDepth "action nesting depth" (depth + 1)
      actions (depth + 1) elseActions
  | .loop name range body =>
    loop name range body.length do
      checkDepth "action nesting depth" (depth + 1)
      actions (depth + 1) body
  | .code text => skipCode text

/-- Runs the actions of a block one after the other. -/
def actions (depth : Nat) : List Action → Run Unit
  | [] => return ()
  | a :: as => do
    checkpoint
    express (a.shortage? ·)
    log .actionExecuted a.text
    action depth a
    actions depth as

end

/-- Runs a block of actions at some depth of nesting. -/
def block (depth : Nat) (as : List Action) : Run Unit := do
  checkDepth "action nesting depth" depth
  actions depth as

/-! ## UI trees -/

/-- Presses a button: its own actions first, then its handler, then its navigation. -/
def press (screen : Screen) (navigation : Option Navigation) (handler : Option String)
    (as : List Action) : Run Unit := do
  block 1 as
  if let some name := handler then
    match screen.handler? name with
    | some h => block 1 h.body
    | none => stop (.undefinedHandler name none)
  if let some n := navigation then block 1 [.navigate n]

/-- What a walk does at a node before it turns to the children. -/
def visit (screen : Screen) (pressing : Bool) : Node → Run Unit
  | .text _ content => do
    let look ← look
    express (content.argumentShortage? look ·)
    track (content.argumentText look).length
  | .image source => track (source.length + 1024)
  | .input label binding => do
    track label.length
    writeMissing binding (.text "")
  | .list binding _ => do
    writeMissing binding (.list [])
    track (((← get).store.get? binding).getD .null).size
  | .component name props => do
    express (Expr.shortageOf? · (props.map (·.2)))
    track (name.length + total (props.map (·.2.text.length)))
  | .button label navigation handler as => do
    track (label.length + 100)
    if pressing then press screen navigation handler as
  | .container .. | .conditional .. => return ()

/-- Starts the visit of a node at some depth. -/
def enter (screen : Screen) (depth : Nat) (pressing : Bool) (node : Node) : Run Unit := do
  checkDepth "UI nesting depth" depth
  if (← options).debug then log .uiRendered node.kind
  visit screen pressing node

mutual

/-- Walks over a UI tree that stands at some depth. Buttons are pressed except in the templates of
lists. -/
def walk (screen : Screen) (depth : Nat) (pressing : Bool) : Node → Run Unit
  | .container layout nodes => do
    enter screen depth pressing (.container layout nodes)
    walkAll screen (depth + 1) pressing nodes
    checkpoint
  | .list binding template => do
    enter screen depth pressing (.list binding template)
    walk screen (depth + 1) false template
    checkpoint
  | .conditional condition thenBranch elseBranch => do
    enter screen depth pressing (.conditional condition thenBranch elseBranch)
    if ← holds condition then walk screen (depth + 1) pressing thenBranch
    else walkElse screen (depth + 1) pressing elseBranch
    checkpoint
  | node => do
    enter screen depth pressing node
    checkpoint

/-- Walks over some UI trees one after the other. -/
def walkAll (screen : Screen) (depth : Nat) (pressing : Bool) : List Node → Run Unit
  | [] => return ()
  | n :: ns => do
    walk screen depth pressing n
    walkAll screen depth pressing ns

/-- Walks over an optional UI tree. -/
def walkElse (screen : Screen) (depth : Nat) (pressing : Bool) : Option Node → Run Unit
  | none => return ()
  | some n => walk screen depth pressing n

end

/-! ## Whole runs -/

/-- Accepts a program: its risk is accepted, and it passes the checks of the engine. -/
def accept (p : Program) (risk : Option Risk) : Run Unit := do
  if let some found := risk then
    let allowed := (← options).maxRisk
    if allowed < found then stop (.refused (.risk found allowed))
  check p.checks

/-- Enters a screen of a program: it passes the checks of the engine, and its state is written. -/
def enterScreen (p : Program) (name : String) : Run Screen := do
  match p.screen? name with
  | none => stop (.undefinedScreen name)
  | some screen =>
    settle ((← get).engine.guard.checkScreen screen)
    seed screen.state
    return screen

/-- Starts a run of a program on a screen. -/
def start (p : Program) (name : String) (risk : Option Risk) : Run Screen := do
  setStatus .initializing
  accept p risk
  seed p.state
  setStatus .running
  enterScreen p name

/-- Runs a program on a screen: walks over its UI tree. -/
def showing (p : Program) (name : String) (risk : Option Risk) : Run Unit := do
  let screen ← start p name risk
  walk screen 1 true screen.ui
  checkpoint

/-- Runs one handler of a screen of a program. -/
def handling (p : Program) (name handler : String) : Run Unit := do
  let screen ← start p name none
  match screen.handler? handler with
  | none => stop (.undefinedHandler handler (some name))
  | some h =>
    block 1 h.body
    checkpoint

end Run

/-! ## The end of a run -/

namespace Statistics

/-- The counters after one more run, which ended in a status with or without an error. -/
def count (t : Statistics) (status : RunStatus) (success : Bool) (store : Store) : Statistics :=
  { runs := t.runs + 1
    completed := t.completed + if success then 1 else 0
    failed := t.failed + if success then 0 else 1
    lastStatus := status
    memory := store.memory
    «variables» := store.values.length
    changes := store.history.length }

end Statistics

namespace RunState

/-- Traces the hits on the denylist that were let through, and forgets them. -/
def logHits (s : RunState) : RunState :=
  let s := s.engine.guard.hits.foldl (fun s hit => s.log .securityWarning hit.text) s
  { s with engine := { s.engine with guard := { s.engine.guard with hits := [] } } }

/-- Traces an error. -/
def logError (s : RunState) : Option RunError → RunState
  | some e => s.log .error e.message
  | none => s

/-- Ends a run with an error or without one: its hits and its error are traced, its status is set, and
it is counted. -/
def finish (s : RunState) (error : Option RunError) : RunResult × RunState :=
  let hits := s.engine.guard.hits
  let status := (error.map RunError.status).getD .completed
  let s := (s.logHits.logError error).setStatus status
  let statistics := s.engine.statistics.count status error.isNone s.store
  let result : RunResult :=
    { status
      values := s.store.values
      memory := s.store.memory - s.baseline
      events := s.events
      history := s.store.history
      navigations := s.navigations
      error
      hits }
  (result, { s with engine := { s.engine with statistics } })

/-- Performs a run up to its result, whether it stops with an error or not. -/
def perform (s : RunState) (run : Run Unit) : Except Breakdown RunResult × RunState :=
  match run s with
  | (.ok (), s) => let (result, s) := s.finish none; (.ok result, s)
  | (.error (.error e), s) => let (result, s) := s.finish (some e); (.ok result, s)
  | (.error (.breakdown b), s) => (.error b, s)

end RunState

/-! ## Engines at work -/

/-- The outcome of a step of an engine, with what listeners heard on the way. -/
structure EngineStep (α : Type) where
  result : α
  engine : Engine
  heard : List Delivery

namespace Engine

/-- Takes the store out of a run, if the engine shares it with other runs. -/
def keep (engine : Engine) (store : Store) : Engine :=
  match engine.shared with
  | some _ => { engine with shared := some store }
  | none => engine

/-- Performs a run. -/
def perform (engine : Engine) (run : Run Unit) : EngineStep (Except Breakdown RunResult) :=
  match engine.storeForRun with
  | .error b => ⟨.error b, engine, []⟩
  | .ok store =>
    let (result, s) := RunState.perform ⟨engine, store, store.memory, [], [], []⟩ run
    ⟨result, s.engine.keep s.store, s.heard⟩

/-- Runs a program on a screen, by default its start screen. -/
def run (engine : Engine) (p : Program) (entry : Option String) (risk : Option Risk) :
    EngineStep (Except Breakdown RunResult) :=
  let name := match entry with
    | none | some "" => p.start
    | some name => name
  engine.perform (Run.showing p name risk)

/-- Runs a handler of a screen of a program. -/
def dispatch (engine : Engine) (p : Program) (screen handler : String) :
    EngineStep (Except Breakdown RunResult) :=
  engine.perform (Run.handling p screen handler)

/-- Writes a variable of the shared store from outside a run; `held` listens to this write only. -/
def set (engine : Engine) (store : Store) (name : String) (value : Value)
    (held : Option Reaction) : EngineStep (Except RunError Change) :=
  let w := match held with
    | some reaction => store.setHeld engine.writeGuard name value reaction
    | none => store.set engine.writeGuard name value
  ⟨w.result, (engine.afterWrite w).keep w.store, w.heard⟩

end Engine

end Screenplay
