/-
The tasks of a run. A run is a sequence of moves: it traces an event, checks something, adds to the memory, writes a
variable, writes out a text, records a navigation, pauses at a checkpoint or stops. Everything else that it has to do
is a task that is made of moves: it has parts, which may depend on the state, and it does what its parts do.
-/
import Screenplay.Proofs.Run.Steps

namespace Screenplay

/-! ## Moves -/

/-- A single move of a run. -/
inductive Move where
  | status (status : RunStatus)
  | log (kind : EventKind) (detail : String)
  | check (checks : List Check)
  /-- the checks of a screen that is entered -/
  | vet (screen : Screen)
  | depth (entity : String) (depth : Nat)
  | track (amount : Nat)
  | pause
  /-- a text is written out, unless the room for it falls short -/
  | express (shortage : Nat → Option Shortage)
  | record (navigation : Navigation)
  /-- the change of a variable, without the event that tells of it -/
  | write (name : String) (value : Value)
  | stop (halt : Halt)

namespace Run

/-- Changes a variable. -/
def put (name : String) (value : Value) : Run Unit := do
  let s ← get
  let w := s.store.set s.engine.writeGuard name value
  set { s with store := w.store, engine := s.engine.afterWrite w, heard := s.heard ++ w.heard }
  match w.result with
  | .ok _ => return ()
  | .error e => stop e

/-- Records a navigation by its target. -/
def record (n : Navigation) : Run Unit :=
  modify fun s => { s with navigations := s.navigations ++ [n.target] }

end Run

/-- What a move does. -/
def Move.run : Move → Run Unit
  | .status entered => Run.setStatus entered
  | .log kind detail => Run.log kind detail
  | .check checks => Run.check checks
  | .vet screen => do Run.settle ((← get).engine.guard.checkScreen screen)
  | .depth entity nested => Run.checkDepth entity nested
  | .track amount => Run.track amount
  | .pause => Run.checkpoint
  | .express shortage => Run.express shortage
  | .record navigation => Run.record navigation
  | .write name value => Run.put name value
  | .stop halt => throw halt

namespace Move

/-- The state that a move leaves behind, whether it stops the run or not. -/
def effect (s : RunState) : Move → RunState
  | .status entered => s.setStatus entered
  | .log kind detail => s.log kind detail
  | .check checks => { s with engine := { s.engine with guard := (s.engine.guard.check checks).2 } }
  | .vet screen => { s with engine := { s.engine with guard := (s.engine.guard.checkScreen screen).2 } }
  | .depth .. | .stop _ => s
  | .pause => { s with engine := s.engine.inquire }
  | .express _ => { s with engine := s.engine.contact }
  | .track amount => { s with store := s.store.track amount }
  | .record n => { s with navigations := s.navigations ++ [n.target] }
  | .write name value =>
    let w := s.store.set s.engine.writeGuard name value
    { s with store := w.store, engine := s.engine.afterWrite w, heard := s.heard ++ w.heard }

/-- What a guard makes of a run. -/
def settled : Except Violation Unit → Except Halt Unit
  | .ok () => .ok ()
  | .error violation => .error (.error (.refused violation))

/-- What becomes of a run that needs something. -/
def required : Option Shortage → Except Halt Unit
  | none => .ok ()
  | some shortage => .error (.breakdown (.short shortage))

/-- What becomes of a run that has used more memory than it may: an error, unless that cannot be told. -/
def spent (used allowed : Int) : Except Halt Unit :=
  match (Value.wholeShortage? used).or (Value.wholeShortage? allowed) with
  | none => .error (.error (.outOfMemory used allowed))
  | some shortage => .error (.breakdown (.short shortage))

/-- What becomes of a run at a checkpoint. -/
def paused (s : RunState) : Except Halt Unit :=
  if s.engine.inquire.cancelled then .error (.error .cancelled)
  else if s.engine.options.maxSeconds < s.engine.around.elapsed s.engine.contacts then
    .error (.error (.timedOut s.engine.options.maxSeconds))
  else if s.engine.options.maxMemory < s.store.memory - s.baseline then
    spent (s.store.memory - s.baseline) s.engine.options.maxMemory
  else .ok ()

/-- Whether a run goes on after a move, or why it stops. -/
def verdict (s : RunState) : Move → Except Halt Unit
  | .status _ | .log .. | .track _ | .record _ => .ok ()
  | .check checks => settled (s.engine.guard.check checks).1
  | .vet screen => settled (s.engine.guard.checkScreen screen).1
  | .depth entity nested =>
    if maxDepth < nested then .error (.error (.refused (.limit entity nested maxDepth))) else .ok ()
  | .pause => paused s
  | .express shortage => required (shortage (s.engine.around.room s.engine.contacts))
  | .write name value =>
    match (s.store.set s.engine.writeGuard name value).result with
    | .ok _ => .ok ()
    | .error e => .error (.error e)
  | .stop halt => .error halt

theorem settle_run (outcome : Except Violation Unit × Guard) (s : RunState) :
    Run.settle outcome s =
      (settled outcome.1, { s with engine := { s.engine with guard := outcome.2 } }) := by
  rcases outcome with ⟨violation | ⟨⟩, guard⟩ <;> rfl

theorem require_run (shortage : Option Shortage) (s : RunState) :
    Run.require shortage s = (required shortage, s) := by
  cases shortage <;> rfl

theorem express_run (shortage : Nat → Option Shortage) (s : RunState) :
    Run.express shortage s =
      (required (shortage (s.engine.around.room s.engine.contacts)), { s with engine := s.engine.contact }) := by
  rw [Run.express, Run.get_bind_run, Run.set_bind_run, require_run]

theorem checkpoint_run (s : RunState) :
    Run.checkpoint s = (paused s, { s with engine := s.engine.inquire }) := by
  unfold Run.checkpoint paused spent
  rw [Run.get_bind_run, Run.set_bind_run]
  dsimp only
  split
  · rfl
  · split
    · rfl
    · split
      · rw [Run.bind_run, require_run]
        cases (Value.wholeShortage? (s.store.memory - s.baseline)).or
          (Value.wholeShortage? s.engine.options.maxMemory) <;> rfl
      · rfl

/-- A move has its effect, and the run goes on or stops. -/
theorem run_eq (m : Move) (s : RunState) : m.run s = (m.verdict s, m.effect s) := by
  cases m with
  | status | log | track | record | stop => rfl
  | check checks => exact settle_run _ s
  | vet screen => exact settle_run _ s
  | depth entity nested =>
    rw [run, Run.checkDepth, verdict]
    split <;> rfl
  | pause => exact checkpoint_run s
  | express shortage => exact express_run shortage s
  | write name value =>
    rw [run, Run.put, Run.get_bind_run, Run.set_bind_run, verdict, effect]
    cases (s.store.set s.engine.writeGuard name value).result <;> rfl

end Move

/-! ## Tasks -/

/-- Something that a run has to do. -/
inductive Task where
  | move (move : Move)
  | accept (p : Program) (risk : Option Risk)
  | missing (name : String) (value : Value)
  | seed (vs : List StateVar)
  /-- some arguments are checked -/
  | arguments (args : List Expr)
  /-- a call, some of whose arguments have been rendered -/
  | calling (function : String) (texts : List String) (args : List Expr)
  | action (depth : Nat) (action : Action)
  | actions (depth : Nat) (actions : List Action)
  /-- the rounds of a loop that are left -/
  | rounds (name : String) (depth : Nat) (body : List Action) (n : Nat) (i : Int)
  | measure (binding : String)
  | visit (screen : Screen) (pressing : Bool) (node : Node)
  /-- the branch of a condition is walked over -/
  | branch (screen : Screen) (depth : Nat) (pressing : Bool) (condition : Expr) (thenBranch : Node)
      (elseBranch : Option Node)
  | walk (screen : Screen) (depth : Nat) (pressing : Bool) (node : Node)
  /-- a screen is entered and walked over -/
  | present (p : Program) (name : String)
  /-- a screen is entered and one of its handlers is run -/
  | handle (p : Program) (name handler : String)

namespace Task

/-- A run stops with an error. -/
def stop (e : RunError) : Task := .move (.stop (.error e))

/-- A variable is written. -/
def writing (name : String) (value : Value) : List Task :=
  [.move (.write name value), .move (.express (value.displayShortage? ·)),
    .move (.log .stateUpdated s!"{name} = {value.display}")]

/-- A block of actions is run. -/
def block (depth : Nat) (as : List Action) : List Task :=
  [.move (.depth "action nesting depth" depth), .actions depth as]

/-- The text of an argument is checked. -/
def judging (text : String) : Task :=
  if maxArgument < text.length then stop (.longArgument text.length)
  else .move (.check [.text text "call argument"])

/-- An argument is written out, and its text is checked. -/
def argument (s : RunState) (arg : Expr) : List Task :=
  [.move (.express (arg.argumentShortage? s.store.get? ·)), judging (arg.argumentText s.store.get?)]

/-- A handler of a screen is run. -/
def handler (screen : Screen) (name : String) (asked : Option String) : List Task :=
  match screen.handler? name with
  | some h => block 1 h.body
  | none => [stop (.undefinedHandler name asked)]

/-- A button is pressed. -/
def press (screen : Screen) (navigation : Option Navigation) (name : Option String) (as : List Action) :
    List Task :=
  block 1 as
    ++ (match name with
      | some name => handler screen name none
      | none => [])
    ++ (match navigation with
      | some n => block 1 [.navigate n]
      | none => [])

/-- A screen is entered. -/
def entering (p : Program) (name : String) (next : Screen → List Task) : List Task :=
  match p.screen? name with
  | some screen => [.move (.vet screen), .seed screen.state] ++ next screen
  | none => [stop (.undefinedScreen name)]

/-- What depends on a condition. -/
def deciding (outcome : Except Value.Overflow Bool) (yes no : List Task) : List Task :=
  match outcome with
  | .ok true => yes
  | .ok false => no
  | .error .overflow => [.move (.stop (.breakdown .overflow))]

/-- The parts of an action. -/
def partsOfAction (s : RunState) (depth : Nat) : Action → List Task
  | .navigate n =>
    if maxTarget < n.target.length then [stop .longTarget]
    else [.move (.check [.text n.target "navigation target"]), .arguments n.args,
      .move (.record n), .move (.log .navigation n.target)]
  | .update name value source =>
    .move (.express (value.valueShortage? s.store.get? ·)) ::
      match value.evaluate s.store.get? with
      | .error e =>
        [.move (.log .unsupportedExpression s!"{name} = {source}: {RunError.unsupportedText e.expr}")]
      | .ok (.text text) => .move (.check (Check.string text s!"value of '{name}'")) :: writing name (.text text)
      | .ok value => writing name value
  | .call function args =>
    if maxArguments < args.length then
      [.move (.check [.text function "function call"]), stop (.manyArguments args.length)]
    else [.move (.check [.text function "function call"]), .calling function [] args]
  | .branch condition thenActions elseActions =>
    deciding (condition.holds s.store.get?) (block (depth + 1) thenActions) (block (depth + 1) elseActions)
  | .loop name range body =>
    if maxLoopBody < body.length then [stop .largeLoop]
    else match Range.ofText? range with
      | none => [stop (.invalidRange range)]
      | some r => [.rounds name depth body (min r.length s.engine.options.maxRounds).toNat r.low]
  | .code text =>
    [.move (.check (Check.string text "action code")),
      .move (.log .codeSkipped (String.ofList (text.toList.take 80)))]

/-- The parts of the visit of a node. -/
def partsOfVisit (s : RunState) (screen : Screen) (pressing : Bool) : Node → List Task
  | .text _ content =>
    [.move (.express (content.argumentShortage? s.store.get? ·)),
      .move (.track (content.argumentText s.store.get?).length)]
  | .image source => [.move (.track (source.length + 1024))]
  | .input label binding => [.move (.track label.length), .missing binding (.text "")]
  | .list binding _ => [.missing binding (.list []), .measure binding]
  | .component name props =>
    [.move (.express (Expr.shortageOf? · (props.map (·.2)))),
      .move (.track (name.length + total (props.map (·.2.text.length))))]
  | .button label navigation name as =>
    .move (.track (label.length + 100)) :: if pressing then press screen navigation name as else []
  | .container .. | .conditional .. => []

/-- The parts of a walk below the node itself. -/
def partsBelow (screen : Screen) (depth : Nat) (pressing : Bool) : Node → List Task
  | .container _ nodes => nodes.map (.walk screen depth pressing)
  | .list _ template => [.walk screen depth false template]
  | .conditional condition thenBranch elseBranch =>
    [.branch screen depth pressing condition thenBranch elseBranch]
  | _ => []

/-- The parts of a task in some state; a move has none. -/
def parts? (s : RunState) : Task → Option (List Task)
  | .move _ => none
  | .accept p none => some [.move (.check p.checks)]
  | .accept p (some found) =>
    some [if s.engine.options.maxRisk < found
      then stop (.refused (.risk found s.engine.options.maxRisk)) else .move (.check p.checks)]
  | .missing name value => some (if s.store.has name then [] else writing name value)
  | .seed [] => some []
  | .seed (v :: vs) => some [.missing v.name v.value, .seed vs]
  | .arguments [] => some []
  | .arguments (arg :: args) => some (argument s arg ++ [.arguments args])
  | .calling function texts [] =>
    some [.move (.log .functionCalled (function ++ "(" ++ Text.join ", " texts ++ ")"))]
  | .calling function texts (arg :: args) =>
    some (argument s arg ++ [.calling function (texts ++ [arg.argumentText s.store.get?]) args])
  | .action depth a => some (partsOfAction s depth a)
  | .actions _ [] => some []
  | .actions depth (a :: as) =>
    some [.move .pause, .move (.express (a.shortage? ·)), .move (.log .actionExecuted a.text), .action depth a,
      .actions depth as]
  | .rounds _ _ _ 0 _ => some []
  | .rounds name depth body (n + 1) i =>
    some (.move .pause :: writing name (.int i) ++ block (depth + 1) body
      ++ [.rounds name depth body n (i + 1)])
  | .measure binding => some [.move (.track ((s.store.get? binding).getD .null).size)]
  | .visit screen pressing node => some (partsOfVisit s screen pressing node)
  | .branch screen depth pressing condition thenBranch elseBranch =>
    some (deciding (condition.holds s.store.get?) [.walk screen depth pressing thenBranch]
      (elseBranch.toList.map (.walk screen depth pressing)))
  | .walk screen depth pressing node =>
    some (.move (.depth "UI nesting depth" depth)
      :: (if s.engine.options.debug then [.move (.log .uiRendered node.kind)] else [])
      ++ .visit screen pressing node :: partsBelow screen (depth + 1) pressing node ++ [.move .pause])
  | .present p name =>
    some (entering p name fun screen => [.walk screen 1 true screen.ui, .move .pause])
  | .handle p name called =>
    some (entering p name fun screen => handler screen called (some name) ++ [.move .pause])

/-! ### What holds of parts -/

section

variable {P : Task → Prop}

theorem forall_handler {screen : Screen} {name : String} {asked : Option String}
    (undefined : P (stop (.undefinedHandler name asked))) (inside : ∀ as, ∀ t ∈ block 1 as, P t) :
    ∀ t ∈ handler screen name asked, P t := by
  unfold handler
  split
  · exact inside _
  · exact List.forall_mem_singleton.mpr undefined

theorem forall_press {screen : Screen} {navigation : Option Navigation} {name : Option String} {as : List Action}
    (undefined : ∀ name, P (stop (.undefinedHandler name none))) (inside : ∀ as, ∀ t ∈ block 1 as, P t) :
    ∀ t ∈ press screen navigation name as, P t := by
  unfold press
  simp only [List.forall_mem_append]
  refine ⟨⟨inside as, ?_⟩, ?_⟩
  · cases name with
    | none => exact List.forall_mem_nil _
    | some name => exact forall_handler (undefined name) inside
  · cases navigation with
    | none => exact List.forall_mem_nil _
    | some n => exact inside _

theorem forall_deciding {outcome : Except Value.Overflow Bool} {yes no : List Task}
    (overflow : P (.move (.stop (.breakdown .overflow)))) (hy : ∀ t ∈ yes, P t) (hn : ∀ t ∈ no, P t) :
    ∀ t ∈ deciding outcome yes no, P t := by
  rcases outcome with ⟨⟨⟩⟩ | ⟨_ | _⟩
  · exact List.forall_mem_singleton.mpr overflow
  · exact hn
  · exact hy

theorem forall_visit {s : RunState} {screen : Screen} {pressing : Bool} {node : Node}
    (expressed : ∀ shortage, P (.move (.express shortage))) (tracked : ∀ amount, P (.move (.track amount)))
    (missing : ∀ name value, P (.missing name value))
    (measured : ∀ binding, P (.measure binding))
    (pressed : ∀ navigation name as, ∀ t ∈ press screen navigation name as, P t) :
    ∀ t ∈ partsOfVisit s screen pressing node, P t := by
  cases node with
  | button label navigation name as =>
    rw [partsOfVisit, List.forall_mem_cons]
    refine ⟨tracked _, ?_⟩
    split
    · exact pressed navigation name as
    · exact List.forall_mem_nil _
  | _ => simp [partsOfVisit, expressed, tracked, missing, measured]

end

/-- The kinds of events that the parts of actions trace. -/
def actionEvents : List EventKind := [.stateUpdated, .navigation, .functionCalled, .codeSkipped, .unsupportedExpression]

/-- What an action can be made of. -/
inductive OfAction : Task → Prop
  | check (checks : List Check) : OfAction (.move (.check checks))
  | log {kind : EventKind} (h : kind ∈ actionEvents) (detail : String) : OfAction (.move (.log kind detail))
  | depth (entity : String) (depth : Nat) : OfAction (.move (.depth entity depth))
  | express (shortage : Nat → Option Shortage) : OfAction (.move (.express shortage))
  | record (n : Navigation) : OfAction (.move (.record n))
  | write (name : String) (value : Value) : OfAction (.move (.write name value))
  | stop (halt : Halt) : OfAction (.move (.stop halt))
  | arguments (args : List Expr) : OfAction (.arguments args)
  | calling (function : String) (texts : List String) (args : List Expr) : OfAction (.calling function texts args)
  | actions (depth : Nat) (as : List Action) : OfAction (.actions depth as)
  | rounds (name : String) (depth : Nat) (body : List Action) (n : Nat) (i : Int) :
    OfAction (.rounds name depth body n i)

theorem ofAction_writing (name : String) (value : Value) : ∀ t ∈ writing name value, OfAction t := by
  intro t ht
  simp only [writing, List.mem_cons, List.not_mem_nil, or_false] at ht
  rcases ht with rfl | rfl | rfl
  · exact .write name value
  · exact .express _
  · exact .log (by decide) _

theorem ofAction_block (depth : Nat) (as : List Action) : ∀ t ∈ block depth as, OfAction t := by
  intro t ht
  simp only [block, List.mem_cons, List.not_mem_nil, or_false] at ht
  rcases ht with rfl | rfl
  · exact .depth _ depth
  · exact .actions depth as

/-- The parts of an action are these. -/
theorem ofAction_parts (s : RunState) (depth : Nat) (a : Action) : ∀ t ∈ partsOfAction s depth a, OfAction t := by
  cases a with
  | navigate n =>
    rw [partsOfAction]
    split
    · exact List.forall_mem_singleton.mpr (.stop _)
    · simp only [List.forall_mem_cons]
      exact ⟨.check _, .arguments _, .record _, .log (by decide) _, List.forall_mem_nil _⟩
  | update name value source =>
    rw [partsOfAction, List.forall_mem_cons]
    refine ⟨.express _, ?_⟩
    split
    · exact List.forall_mem_singleton.mpr (.log (by decide) _)
    · exact List.forall_mem_cons.mpr ⟨.check _, ofAction_writing name _⟩
    · exact ofAction_writing name _
  | call function args =>
    rw [partsOfAction]
    split
    · exact List.forall_mem_cons.mpr ⟨.check _, List.forall_mem_singleton.mpr (.stop _)⟩
    · exact List.forall_mem_cons.mpr ⟨.check _, List.forall_mem_singleton.mpr (.calling function [] args)⟩
  | branch condition thenActions elseActions =>
    exact forall_deciding (.stop _) (ofAction_block _ _) (ofAction_block _ _)
  | loop name range body =>
    rw [partsOfAction]
    split
    · exact List.forall_mem_singleton.mpr (.stop _)
    · split
      · exact List.forall_mem_singleton.mpr (.stop _)
      · exact List.forall_mem_singleton.mpr (.rounds ..)
  | code text => exact List.forall_mem_cons.mpr ⟨.check _, List.forall_mem_singleton.mpr (.log (by decide) _)⟩

/-- What a task does. -/
def run : Task → Run Unit
  | .move m => m.run
  | .accept p risk => Run.accept p risk
  | .missing name value => Run.writeMissing name value
  | .seed vs => Run.seed vs
  | .arguments args => discard (Run.arguments args)
  | .calling function texts args => do
    let more ← Run.arguments args
    Run.log .functionCalled (function ++ "(" ++ Text.join ", " (texts ++ more) ++ ")")
  | .action depth a => Run.action depth a
  | .actions depth as => Run.actions depth as
  | .rounds name depth body n i => Run.rounds name (Run.block (depth + 1) body) n i
  | .measure binding => do Run.track (((← get).store.get? binding).getD .null).size
  | .visit screen pressing node => Run.visit screen pressing node
  | .branch screen depth pressing condition thenBranch elseBranch => do
    if ← Run.holds condition then Run.walk screen depth pressing thenBranch
    else Run.walkElse screen depth pressing elseBranch
  | .walk screen depth pressing node => Run.walk screen depth pressing node
  | .present p name => do
    let screen ← Run.enterScreen p name
    Run.walk screen 1 true screen.ui
    Run.checkpoint
  | .handle p name called => do
    let screen ← Run.enterScreen p name
    (screen.handler? called).elim (Run.stop (.undefinedHandler called (some name))) fun h => do
      Run.block 1 h.body
      Run.checkpoint

/-- Does some tasks one after the other. -/
def runAll : List Task → Run Unit
  | [] => return ()
  | t :: ts => do
    t.run
    runAll ts

theorem runAll_append (ts us : List Task) : runAll (ts ++ us) = (do runAll ts; runAll us) := by
  induction ts with
  | nil => simp [runAll]
  | cons t ts ih => simp [runAll, ih]

theorem runAll_one (t : Task) : runAll [t] = t.run := by
  simp [runAll]

/-! ## Parts -/

theorem look_bind_run {α : Type} (f : (String → Option Value) → Run α) (s : RunState) :
    (Run.look >>= f) s = f s.store.get? s := rfl

theorem options_bind_run {α : Type} (f : RunOptions → Run α) (s : RunState) :
    (Run.options >>= f) s = f s.engine.options s := rfl

theorem runAll_writing (name : String) (value : Value) : runAll (writing name value) = Run.write name value := by
  funext s
  simp only [writing, runAll, run, Move.run, bind_pure_unit]
  unfold Run.write Run.put
  rw [Run.get_bind_run, Run.bind_run, Run.get_bind_run, Run.set_bind_run, Run.set_bind_run]
  cases hr : (s.store.set s.engine.writeGuard name value).result <;> rfl

theorem runAll_block (depth : Nat) (as : List Action) : runAll (block depth as) = Run.block depth as := by
  simp [block, runAll, run, Move.run, Run.block]

theorem run_argument_bind {α : Type} (arg : Expr) (f : String → Run α) (s : RunState) :
    (Run.argument arg >>= f) s =
      (runAll (argument s arg) >>= fun _ => f (arg.argumentText s.store.get?)) s := by
  unfold Run.argument argument judging
  rw [bind_assoc, look_bind_run]
  by_cases h : maxArgument < (arg.argumentText s.store.get?).length
  · simp only [h, if_true, runAll, bind_assoc]
    rfl
  · simp [h, runAll, run, Move.run]

theorem runAll_handler (screen : Screen) (name : String) (asked : Option String) :
    runAll (handler screen name asked) =
      match screen.handler? name with
      | some h => Run.block 1 h.body
      | none => Run.stop (.undefinedHandler name asked) := by
  unfold handler
  cases screen.handler? name with
  | some h => exact runAll_block 1 h.body
  | none => exact runAll_one _

theorem runAll_deciding (s : RunState) (condition : Expr) (yes no : List Task) :
    runAll (deciding (condition.holds s.store.get?) yes no) s =
      (Run.holds condition >>= fun b => if b then runAll yes else runAll no) s := by
  unfold Run.holds
  rw [bind_assoc, look_bind_run]
  rcases condition.holds s.store.get? with ⟨⟨⟩⟩ | ⟨_ | _⟩ <;> rfl

theorem run_action (depth : Nat) (a : Action) (s : RunState) :
    Run.action depth a s = runAll (partsOfAction s depth a) s := by
  cases a with
  | navigate n =>
    rw [Run.action, Run.navigate, partsOfAction]
    by_cases h : maxTarget < n.target.length
    · simp only [h, if_true]
      rfl
    · simp only [h, if_false, runAll, run, Move.run, Run.record, bind_pure_unit]
  | update name value source =>
    rw [Run.action, Run.update, look_bind_run, partsOfAction, runAll]
    -- both go on in the same way once the value can be told, so they are compared behind that
    refine congrFun (congrArg (Run.express (value.valueShortage? s.store.get? ·) >>= ·) ?_) s
    funext done
    cases value.evaluate s.store.get? with
    | error e => rw [runAll_one]; rfl
    | ok v =>
      cases v with
      | text t => simp only [runAll, runAll_writing, run, Move.run]
      | _ => simp only [runAll_writing]
  | call function args =>
    rw [Run.action, Run.call, partsOfAction]
    by_cases h : maxArguments < args.length
    · simp only [h, if_true, runAll, run, Move.run, stop, bind_pure_unit]
      rfl
    · simp only [h, if_false, runAll, run, Move.run, List.nil_append, bind_pure_unit]
  | branch condition thenActions elseActions =>
    rw [Run.action, partsOfAction, runAll_deciding, runAll_block, runAll_block]
    rfl
  | loop name range body =>
    rw [Run.action, Run.loop, partsOfAction]
    by_cases h : maxLoopBody < body.length
    · simp only [h, if_true]
      rfl
    · simp only [h, if_false]
      cases Range.ofText? range with
      | none => rfl
      | some r =>
        rw [runAll_one]
        rfl
  | code text =>
    simp only [Run.action, Run.skipCode, partsOfAction, runAll, run, Move.run, bind_pure_unit]

theorem runAll_press (screen : Screen) (navigation : Option Navigation) (name : Option String)
    (as : List Action) : runAll (press screen navigation name as) = Run.press screen navigation name as := by
  unfold press Run.press
  rw [runAll_append, runAll_append, runAll_block, bind_assoc]
  cases name with
  | none =>
    cases navigation with
    | none => simp [runAll]
    | some n => simp [runAll, runAll_block]
  | some name =>
    simp only [runAll_handler]
    cases screen.handler? name with
    | none => rfl
    | some h =>
      cases navigation with
      | none => simp [runAll]
      | some n => simp [runAll_block]

theorem run_visit (screen : Screen) (pressing : Bool) (node : Node) (s : RunState) :
    Run.visit screen pressing node s = runAll (partsOfVisit s screen pressing node) s := by
  cases node with
  | text role content =>
    rw [Run.visit, look_bind_run, partsOfVisit]
    simp only [runAll, run, Move.run, bind_pure_unit]
  | image source => rw [Run.visit, partsOfVisit, runAll_one]; rfl
  | component name props => simp only [Run.visit, partsOfVisit, runAll, run, Move.run, bind_pure_unit]
  | input label binding => simp only [Run.visit, partsOfVisit, runAll, run, Move.run, bind_pure_unit]
  | list binding template => simp only [Run.visit, partsOfVisit, runAll, run, bind_pure_unit]
  | button label navigation name as =>
    rw [Run.visit, partsOfVisit]
    cases pressing with
    | true => simp only [runAll, if_true, runAll_press, run, Move.run]
    | false => simp only [runAll, run, Move.run]; rfl
  | container | conditional => rfl

theorem runAll_walks (screen : Screen) (depth : Nat) (pressing : Bool) (nodes : List Node) :
    runAll (nodes.map (.walk screen depth pressing)) = Run.walkAll screen depth pressing nodes := by
  induction nodes with
  | nil => rfl
  | cons n ns ih => simp only [List.map_cons, runAll, ih, run, Run.walkAll]

theorem runAll_walkElse (screen : Screen) (depth : Nat) (pressing : Bool) (node : Option Node) :
    runAll (node.toList.map (.walk screen depth pressing)) = Run.walkElse screen depth pressing node := by
  cases node with
  | none => rfl
  | some n => exact runAll_one _

/-- A walk enters a node, then turns to what is below it, and pauses. -/
theorem walk_eq (screen : Screen) (depth : Nat) (pressing : Bool) (node : Node) :
    Run.walk screen depth pressing node = (do
      Run.enter screen depth pressing node
      runAll (partsBelow screen (depth + 1) pressing node)
      Run.checkpoint) := by
  cases node with
  | container layout nodes => rw [Run.walk, partsBelow, runAll_walks]
  | list binding template => rw [Run.walk, partsBelow, runAll_one]; rfl
  | conditional condition thenBranch elseBranch =>
    rw [Run.walk, partsBelow, runAll_one]
    simp only [run, bind_assoc]
    congr 1
    funext _
    congr 1
    funext holds
    cases holds <;> rfl
  | text | button | image | input | component =>
    rw [Run.walk]
    · simp [partsBelow, runAll]
    all_goals simp

/-- Entering a node checks its depth, traces it if asked to, and visits it. -/
theorem run_enter (screen : Screen) (depth : Nat) (pressing : Bool) (node : Node) (s : RunState) :
    Run.enter screen depth pressing node s =
      runAll (.move (.depth "UI nesting depth" depth)
        :: (if s.engine.options.debug then [.move (.log .uiRendered node.kind)] else [])
        ++ [.visit screen pressing node]) s := by
  rw [Run.enter, List.cons_append, runAll, run, Move.run, Run.checkDepth]
  split
  · rfl
  · -- a check that is passed leaves the state, and so the options, as they are
    rw [pure_bind, pure_bind, options_bind_run]
    cases s.engine.options.debug <;> simp [runAll, run, Move.run]

theorem runAll_entering (p : Program) (name : String) (next : Screen → List Task) :
    runAll (entering p name next) = (do
      let screen ← Run.enterScreen p name
      runAll (next screen)) := by
  unfold entering Run.enterScreen
  cases p.screen? name with
  | none => rw [runAll_one]; rfl
  | some screen => simp [runAll, run, Move.run]

theorem discard_eq_bind {α : Type} (m : Run α) : discard m = (m >>= fun _ => return ()) := rfl

/-- What follows two steps that do the same does the same. -/
theorem bind_run_congr {α β : Type} {m n : Run α} {s : RunState} (h : m s = n s) (f : α → Run β) :
    (m >>= f) s = (n >>= f) s := by
  rw [Run.bind_run, Run.bind_run, h]

/-- What a task does is what its parts do. -/
theorem run_eq_parts {t : Task} {s : RunState} {ts : List Task} (h : t.parts? s = some ts) :
    t.run s = runAll ts s := by
  cases t with
  -- the interpreter is unfolded for one task at a time, and what it does is regrouped into the parts
  | move m => cases h
  | accept p risk =>
    cases risk with
    | none => cases h; rw [runAll_one]; rfl
    | some found =>
      cases h
      rw [runAll_one, run, Run.accept, options_bind_run]
      split
      · rfl
      · rfl
  | missing name value =>
    cases h
    rw [run, Run.writeMissing, Run.get_bind_run]
    cases s.store.has name with
    | true => rfl
    | false => exact (congrFun (runAll_writing name value) s).symm
  | seed vs =>
    cases vs with
    | nil => cases h; rfl
    | cons v vs => cases h; simp only [runAll, run, Run.seed, bind_pure_unit]
  | arguments args =>
    cases args with
    | nil => cases h; rfl
    | cons arg args =>
      cases h
      rw [run, discard_eq_bind, Run.arguments, bind_assoc, run_argument_bind]
      simp [runAll_append, runAll, run, discard_eq_bind]
  | calling function texts args =>
    cases args with
    | nil => cases h; rw [runAll_one]; simp [run, Run.arguments, Move.run]
    | cons arg args =>
      cases h
      rw [run, Run.arguments, bind_assoc, run_argument_bind]
      simp [runAll_append, runAll, run]
  | action depth a => cases h; exact run_action depth a s
  | actions depth as =>
    cases as with
    | nil => cases h; rfl
    | cons a as => cases h; simp only [runAll, run, Move.run, Run.actions, bind_pure_unit]
  | rounds name depth body n i =>
    cases n with
    | zero => cases h; rfl
    | succ n =>
      cases h
      simp [runAll, run, Move.run, Run.rounds, runAll_append, runAll_writing, runAll_block]
  | measure binding => cases h; rw [runAll_one]; rfl
  | visit screen pressing node => cases h; exact run_visit screen pressing node s
  | branch screen depth pressing condition thenBranch elseBranch =>
    cases h
    rw [runAll_deciding, runAll_one, runAll_walkElse]
    rfl
  | walk screen depth pressing node =>
    cases h
    rw [run, walk_eq]
    -- the children come after the entry of their node, which may stop the run
    refine (bind_run_congr (run_enter screen depth pressing node s) _).trans ?_
    simp only [List.cons_append, runAll_append, runAll, run, Move.run, bind_assoc, bind_pure_unit]
  | present p name =>
    cases h
    rw [runAll_entering]
    simp [run, runAll, Move.run]
  | handle p name called =>
    cases h
    rw [runAll_entering]
    simp only [run, runAll_append, runAll_handler, runAll_one, Move.run]
    -- the handler is looked up in the screen that is entered, so any screen is compared
    refine congrFun (congrArg (Run.enterScreen p name >>= ·) ?_) s
    funext screen
    cases screen.handler? called <;> rfl

/-! ## Whole runs -/

/-- What a run starts with: the program is accepted, and its state is written. -/
def starting (p : Program) (risk : Option Risk) : List Task :=
  [.move (.status .initializing), .accept p risk, .seed p.state, .move (.status .running)]

/-- What a run on a screen has to do. -/
def showing (p : Program) (name : String) (risk : Option Risk) : List Task :=
  starting p risk ++ [.present p name]

/-- What a run of a handler has to do. -/
def handling (p : Program) (name handler : String) : List Task :=
  starting p none ++ [.handle p name handler]

theorem runAll_showing (p : Program) (name : String) (risk : Option Risk) :
    runAll (showing p name risk) = Run.showing p name risk := by
  simp [showing, starting, runAll, run, Move.run, Run.showing, Run.start]

theorem handling_eq (p : Program) (name handler : String) :
    Run.handling p name handler = (do
      let screen ← Run.start p name none
      (screen.handler? handler).elim (Run.stop (.undefinedHandler handler (some name))) fun h => do
        Run.block 1 h.body
        Run.checkpoint) := by
  unfold Run.handling
  congr 1
  funext screen
  cases screen.handler? handler <;> rfl

theorem runAll_handling (p : Program) (name handler : String) :
    runAll (handling p name handler) = Run.handling p name handler := by
  rw [handling_eq]
  simp only [handling, starting, List.cons_append, List.nil_append, runAll, run, Move.run, Run.start,
    bind_assoc, bind_pure_unit]

end Task

end Screenplay
