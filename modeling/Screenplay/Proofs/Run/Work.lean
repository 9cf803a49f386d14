/-
The work of a run. A loop has as many rounds as its range has numbers, but no more than the options allow; each
round writes one number and does the body once. So the number of actions that a run executes is bounded by a cost
that can be read off the program.
-/
import Screenplay.Proofs.Run.Closing
import Screenplay.Proofs.Run.Moments

namespace Screenplay

/-! ## Loops -/

theorem Range.low_le_high {text : String} {r : Range} (h : Range.ofText? text = some r) : r.low ≤ r.high := by
  unfold Range.ofText? at h
  split at h
  · split at h
    · next a b _ _ =>
      cases h
      show min a b ≤ max a b
      omega
    · cases h
  · cases h

namespace Run

variable {name : String} {depth : Nat} {body : List Action} {s t : RunState}

/-- Two parts of a run that both go on. -/
theorem bind_eq_ok {α β : Type} {m : Run α} {f : α → Run β} {b : β} (h : (m >>= f) s = (.ok b, t)) :
    ∃ a u, m s = (.ok a, u) ∧ f a u = (.ok b, t) := by
  rw [bind_run] at h
  rcases hm : m s with ⟨e | a, u⟩ <;> rw [hm] at h
  · cases h
  · exact ⟨a, u, rfl, h⟩

/-- The rounds of a loop for some numbers: for one after the other a checkpoint is passed, the variable is written,
and then the body is done once. -/
inductive Turns (name : String) (depth : Nat) (body : List Action) : List Int → RunState → RunState → Prop
  | nil (s : RunState) : Turns name depth body [] s s
  | cons {i : Int} {later : List Int} {s t u v w : RunState} (paused : checkpoint s = (.ok (), t))
      (written : write name (.int i) t = (.ok (), u)) (done : block depth body u = (.ok (), v))
      (turns : Turns name depth body later v w) : Turns name depth body (i :: later) s w

/-- The first `n` whole numbers from one on. -/
def numbersFrom (low : Int) (n : Nat) : List Int := (List.range n).map fun (j : Nat) => low + (j : Int)

theorem numbersFrom_succ (low : Int) (n : Nat) : numbersFrom low (n + 1) = low :: numbersFrom (low + 1) n := by
  unfold numbersFrom
  rw [List.range_succ_eq_map, List.map_cons, List.map_map]
  congr 1
  · omega
  · apply List.map_congr_left
    intro j _
    show low + ((j + 1 : Nat) : Int) = low + 1 + j
    omega

/-- Whatever the body does, the numbers of the rounds follow one another. -/
theorem turns_of_rounds {n : Nat} {i : Int} (h : rounds name (block depth body) n i s = (.ok (), t)) :
    Turns name depth body (numbersFrom i n) s t := by
  induction n generalizing i s with
  | zero =>
    cases h
    exact .nil _
  | succ n ih =>
    rw [rounds] at h
    obtain ⟨_, u, paused, h⟩ := bind_eq_ok h
    obtain ⟨_, v, written, h⟩ := bind_eq_ok h
    obtain ⟨_, w, done, h⟩ := bind_eq_ok h
    rw [numbersFrom_succ]
    exact .cons paused written done (ih h)

/-- A loop that comes to its end has had its rounds. -/
theorem turns_of_loop {range : String} {r : Range} (hr : Range.ofText? range = some r)
    (h : action depth (.loop name range body) s = (.ok (), t)) :
    Turns name (depth + 1) body
      (numbersFrom r.low (max 0 (min (r.high - r.low + 1) s.engine.options.maxRounds)).toNat) s t := by
  rw [action, loop] at h
  split at h
  · cases h
  · rw [hr] at h
    dsimp only at h
    rw [Task.options_bind_run] at h
    have count : (max 0 (min (r.high - r.low + 1) s.engine.options.maxRounds)).toNat
        = (min r.length s.engine.options.maxRounds).toNat := by
      unfold Range.length
      omega
    rw [count]
    exact turns_of_rounds h

end Run

/-! ## Costs -/

mutual

/-- The most actions that an action executes, itself included, if loops have some number of rounds. -/
def Action.cost (rounds : Nat) : Action → Nat
  | .branch _ thenActions elseActions => 1 + max (costOf rounds thenActions) (costOf rounds elseActions)
  | .loop _ _ body => 1 + rounds * costOf rounds body
  | .navigate _ | .update .. | .call .. | .code _ => 1

/-- The most actions that some actions execute. -/
def Action.costOf (rounds : Nat) : List Action → Nat
  | [] => 0
  | a :: as => cost rounds a + costOf rounds as

end

/-- The most actions that a handler executes. -/
def Screen.costOfHandler (rounds : Nat) (screen : Screen) (name : String) : Nat :=
  match screen.handler? name with
  | some h => Action.costOf rounds h.body
  | none => 0

/-- The most actions that pressing a button executes. -/
def Screen.costOfPress (rounds : Nat) (screen : Screen) (navigation : Option Navigation) (name : Option String)
    (as : List Action) : Nat :=
  Action.costOf rounds as + (name.map (screen.costOfHandler rounds)).getD 0
    + (navigation.map fun n => (Action.navigate n).cost rounds).getD 0

mutual

/-- The most actions that the buttons of a tree execute; those in the templates of lists are not pressed. -/
def Node.cost (rounds : Nat) (screen : Screen) : Node → Nat
  | .container _ nodes => costOf rounds screen nodes
  | .conditional _ thenBranch elseBranch =>
    max (cost rounds screen thenBranch) (costOfElse rounds screen elseBranch)
  | .button _ navigation name as => screen.costOfPress rounds navigation name as
  | .list .. | .text .. | .image _ | .input .. | .component .. => 0

/-- The most actions that the buttons of some trees execute. -/
def Node.costOf (rounds : Nat) (screen : Screen) : List Node → Nat
  | [] => 0
  | n :: ns => cost rounds screen n + costOf rounds screen ns

/-- The most actions that the buttons of an optional tree execute. -/
def Node.costOfElse (rounds : Nat) (screen : Screen) : Option Node → Nat
  | none => 0
  | some n => cost rounds screen n

end

/-- The most actions that a request executes. -/
def RunRequest.cost (rounds : Nat) (p : Program) : RunRequest → Nat
  | .run entry _ => ((p.screen? (shown p entry)).map fun screen => screen.ui.cost rounds screen).getD 0
  | .dispatch name handler => ((p.screen? name).map fun screen => screen.costOfHandler rounds handler).getD 0

/-! ## Costs of tasks -/

namespace Task

/-- The most actions that the visit of a node executes. -/
def costOfVisit (rounds : Nat) (screen : Screen) : Node → Nat
  | .button _ navigation name as => screen.costOfPress rounds navigation name as
  | _ => 0

/-- The most actions that are yet to be executed when a task is left. The action at the head of a block has been
traced before it is done, so it counts no more. -/
def cost (rounds : Nat) : Task → Nat
  | .move (.log .actionExecuted _) => 1
  | .action _ a => a.cost rounds - 1
  | .actions _ as => Action.costOf rounds as
  | .rounds _ _ body n _ => n * Action.costOf rounds body
  | .visit screen pressing node => if pressing then costOfVisit rounds screen node else 0
  | .branch screen _ pressing _ thenBranch elseBranch =>
    if pressing then max (thenBranch.cost rounds screen) (Node.costOfElse rounds screen elseBranch) else 0
  | .walk screen _ pressing node => if pressing then node.cost rounds screen else 0
  | .present p name => ((p.screen? name).map fun screen => screen.ui.cost rounds screen).getD 0
  | .handle p name handler => ((p.screen? name).map fun screen => screen.costOfHandler rounds handler).getD 0
  | _ => 0

/-- The most actions that are yet to be executed when some tasks are left. -/
def costOf (rounds : Nat) (ts : List Task) : Nat := total (ts.map (cost rounds))

variable {rounds : Nat}

@[simp] theorem costOf_nil : costOf rounds [] = 0 := rfl

@[simp] theorem costOf_cons (t : Task) (ts : List Task) :
    costOf rounds (t :: ts) = t.cost rounds + costOf rounds ts := rfl

@[simp] theorem costOf_append (ts us : List Task) :
    costOf rounds (ts ++ us) = costOf rounds ts + costOf rounds us := by
  unfold costOf
  rw [List.map_append, total_append]

@[simp] theorem costOf_argument (s : RunState) (arg : Expr) : costOf rounds (argument s arg) = 0 := by
  unfold argument judging
  split <;> rfl

@[simp] theorem costOf_writing (name : String) (value : Value) : costOf rounds (writing name value) = 0 := rfl

@[simp] theorem costOf_block (depth : Nat) (as : List Action) :
    costOf rounds (block depth as) = Action.costOf rounds as := by
  simp [block, cost]

@[simp] theorem costOf_handler (screen : Screen) (name : String) (asked : Option String) :
    costOf rounds (handler screen name asked) = screen.costOfHandler rounds name := by
  unfold handler Screen.costOfHandler
  cases screen.handler? name with
  | some h => exact costOf_block 1 h.body
  | none => rfl

theorem costOf_press (screen : Screen) (navigation : Option Navigation) (name : Option String)
    (as : List Action) :
    costOf rounds (press screen navigation name as) = screen.costOfPress rounds navigation name as := by
  unfold press Screen.costOfPress
  cases name <;> cases navigation <;> simp [Action.costOf, Nat.add_assoc]

theorem costOf_deciding_le (rounds : Nat) (outcome : Except Value.Overflow Bool) (yes no : List Task) :
    costOf rounds (deciding outcome yes no) ≤ max (costOf rounds yes) (costOf rounds no) := by
  rcases outcome with ⟨⟨⟩⟩ | ⟨_ | _⟩
  · exact Nat.zero_le _
  · exact Nat.le_max_right ..
  · exact Nat.le_max_left ..

theorem cost_pos (a : Action) : 0 < a.cost rounds := by
  cases a <;> simp only [Action.cost] <;> omega

/-- The parts of an action execute what is below it. -/
theorem costOf_action_lt {s : RunState} (h : s.engine.options.maxRounds.toNat = rounds) (depth : Nat)
    (a : Action) : costOf rounds (partsOfAction s depth a) < a.cost rounds := by
  cases a with
  | navigate n =>
    rw [partsOfAction]
    split <;> exact cost_pos (.navigate n)
  | update name value source =>
    rw [partsOfAction]
    split <;> exact cost_pos (.update name value source)
  | call function args =>
    rw [partsOfAction]
    split <;> exact cost_pos (.call function args)
  | branch condition thenActions elseActions =>
    have decided := costOf_deciding_le rounds (condition.holds s.store.get?)
      (block (depth + 1) thenActions) (block (depth + 1) elseActions)
    rw [costOf_block, costOf_block] at decided
    rw [partsOfAction, Action.cost]
    omega
  | loop name range body =>
    have free : 0 < (Action.loop name range body).cost rounds := cost_pos _
    rw [partsOfAction]
    split
    · exact free
    · cases Range.ofText? range with
      | none => exact free
      | some r =>
        -- whatever the range, there are no more rounds than the options allow
        have fewer : (min r.length s.engine.options.maxRounds).toNat ≤ rounds := by omega
        have product := Nat.mul_le_mul_right (Action.costOf rounds body) fewer
        simp only [costOf_cons, costOf_nil, cost, Action.cost]
        omega
  | code text => exact cost_pos (.code text)

theorem costOf_visit_le (s : RunState) (screen : Screen) (pressing : Bool) (node : Node) :
    costOf rounds (partsOfVisit s screen pressing node)
      ≤ if pressing then costOfVisit rounds screen node else 0 := by
  cases node with
  | button label navigation name as =>
    cases pressing with
    | true => exact Nat.le_of_eq ((Nat.zero_add _).trans (costOf_press screen navigation name as))
    | false => exact Nat.le_refl 0
  | _ => exact Nat.zero_le _

theorem costOf_walks (screen : Screen) (depth : Nat) (pressing : Bool) (nodes : List Node) :
    costOf rounds (nodes.map (.walk screen depth pressing))
      = if pressing then Node.costOf rounds screen nodes else 0 := by
  induction nodes with
  | nil => cases pressing <;> rfl
  | cons n ns ih =>
    rw [List.map_cons, costOf_cons, ih]
    cases pressing <;> rfl

theorem costOf_walkElse (screen : Screen) (depth : Nat) (pressing : Bool) (node : Option Node) :
    costOf rounds (node.toList.map (.walk screen depth pressing))
      = if pressing then Node.costOfElse rounds screen node else 0 := by
  cases node <;> cases pressing <;> rfl

/-- A walk executes what its visit and the walks below it execute. -/
theorem costOf_below_le (rounds : Nat) (screen : Screen) (depth : Nat) (pressing : Bool) (node : Node) :
    (if pressing then costOfVisit rounds screen node else 0)
        + costOf rounds (partsBelow screen depth pressing node)
      ≤ if pressing then node.cost rounds screen else 0 := by
  cases node with
  | container layout nodes =>
    rw [partsBelow, costOf_walks]
    cases pressing with
    | true => exact Nat.le_of_eq (Nat.zero_add _)
    | false => exact Nat.le_refl 0
  | list binding template => cases pressing <;> exact Nat.le_refl 0
  | conditional condition thenBranch elseBranch =>
    cases pressing with
    | true => exact Nat.le_of_eq (Nat.zero_add _)
    | false => exact Nat.le_refl 0
  | button label navigation name as => cases pressing <;> exact Nat.le_refl _
  | text | image | input | component => cases pressing <;> exact Nat.le_refl 0

theorem costOf_entering {p : Program} {name : String} {next : Screen → List Task} {bound : Screen → Nat}
    (h : ∀ screen, costOf rounds (next screen) = bound screen) :
    costOf rounds (entering p name next) = ((p.screen? name).map bound).getD 0 := by
  unfold entering
  cases p.screen? name with
  | none => rfl
  | some screen =>
    rw [costOf_append, h]
    exact Nat.zero_add _

/-- The parts of a task execute no more than the task. -/
theorem costOf_parts_le {t : Task} {s : RunState} {ts : List Task} (h : t.parts? s = some ts)
    (hr : s.engine.options.maxRounds.toNat = rounds) : costOf rounds ts ≤ t.cost rounds := by
  cases t with
  | move m => cases h
  | accept p risk =>
    cases risk with
    | none => cases h; exact Nat.le_refl 0
    | some found => cases h; rw [costOf_cons]; split <;> exact Nat.le_refl 0
  | missing name value => cases h; split <;> exact Nat.le_refl 0
  | seed vs => cases vs <;> cases h <;> exact Nat.le_refl 0
  | arguments args =>
    cases args with
    | nil => cases h; exact Nat.le_refl 0
    | cons arg args => cases h; rw [costOf_append, costOf_argument]; exact Nat.le_refl 0
  | calling function texts args =>
    cases args with
    | nil => cases h; exact Nat.le_refl 0
    | cons arg args => cases h; rw [costOf_append, costOf_argument]; exact Nat.le_refl 0
  | action depth a => cases h; exact Nat.le_sub_one_of_lt (costOf_action_lt hr depth a)
  | actions depth as =>
    cases as with
    | nil => cases h; exact Nat.le_refl 0
    | cons a as =>
      cases h
      -- the action at the head costs one at least, which pays for the event that tells of it
      have free : 0 < a.cost rounds := cost_pos a
      show 0 + (0 + (1 + (a.cost rounds - 1 + (Action.costOf rounds as + 0))))
        ≤ a.cost rounds + Action.costOf rounds as
      omega
  | rounds name depth body n i =>
    cases n with
    | zero => cases h; exact Nat.zero_le _
    | succ n =>
      cases h
      rw [List.cons_append, List.cons_append, costOf_cons, costOf_append, costOf_append, costOf_writing, costOf_block]
      show 0 + (0 + Action.costOf rounds body + (n * Action.costOf rounds body + 0)) ≤ (n + 1) * _
      rw [Nat.succ_mul]
      omega
  | measure binding => cases h; exact Nat.le_refl 0
  | visit screen pressing node => cases h; exact costOf_visit_le s screen pressing node
  | branch screen depth pressing condition thenBranch elseBranch =>
    cases h
    apply Nat.le_trans (costOf_deciding_le ..)
    rw [costOf_walkElse]
    cases pressing <;> exact Nat.le_refl _
  | walk screen depth pressing node =>
    cases h
    have below := costOf_below_le rounds screen (depth + 1) pressing node
    rw [costOf_append, List.cons_append, costOf_cons, costOf_append, costOf_cons]
    -- only the visit and what is below it execute anything
    have shown : costOf rounds (if s.engine.options.debug then [.move (.log .uiRendered node.kind)] else []) = 0 := by
      split <;> rfl
    rw [shown]
    simpa [cost] using below
  | present p name =>
    cases h
    refine Nat.le_of_eq (costOf_entering fun screen => ?_)
    rfl
  | handle p name handler =>
    cases h
    refine Nat.le_of_eq (costOf_entering fun screen => ?_)
    rw [costOf_append, costOf_handler]
    rfl

end Task

/-! ## Executed actions -/

/-- The number of actions that a trace tells of. -/
def executed (events : List Event) : Nat := events.countP (·.kind == .actionExecuted)

theorem executed_append (events more : List Event) :
    executed (events ++ more) = executed events + executed more := List.countP_append ..

theorem executed_eq_zero {events : List Event} (h : ∀ event ∈ events, event.kind ≠ .actionExecuted) :
    executed events = 0 := by
  unfold executed
  rw [List.countP_eq_zero]
  intro event hm
  rw [beq_iff_eq]
  exact h event hm

theorem RunState.executed_log_le (s : RunState) (kind : EventKind) (detail : String) :
    executed (s.log kind detail).events ≤ executed s.events + (if kind = .actionExecuted then 1 else 0) := by
  unfold log
  split
  · exact Nat.le_add_right _ _
  · rw [executed_append]
    apply Nat.add_le_add_left
    by_cases h : kind = .actionExecuted
    · rw [if_pos h]
      exact List.countP_le_length
    · rw [if_neg h]
      apply Nat.le_of_eq
      exact executed_eq_zero (List.forall_mem_singleton.mpr h)

/-- A move executes no more than it costs. -/
theorem Move.executed_effect_le (m : Move) (s : RunState) (rounds : Nat) :
    executed (m.effect s).events ≤ executed s.events + (Task.move m).cost rounds := by
  cases m with
  | log kind detail =>
    refine Nat.le_trans (s.executed_log_le kind detail) (Nat.add_le_add_left ?_ _)
    cases kind <;> exact Nat.le_refl _
  | status entered => exact RunState.executed_log_le _ .statusChanged entered.name
  | check | vet | depth | track | pause | express | record | write | stop => exact Nat.le_refl _

namespace Moment

/-- The actions that are traced at a moment, and those yet to be executed. -/
def work (rounds : Nat) (m : Moment) : Nat := executed m.state.events + Task.costOf rounds m.left

variable {m n : Moment} {rounds : Nat}

theorem Next.work_le (h : Next m n) (hr : m.state.engine.options.maxRounds.toNat = rounds) :
    n.work rounds ≤ m.work rounds := by
  cases h with
  | made h =>
    rename_i move left s
    have made := move.executed_effect_le s rounds
    unfold work
    rw [Task.costOf_cons]
    dsimp only
    omega
  | opened h =>
    rename_i task parts left s
    have opened := Task.costOf_parts_le h hr
    unfold work
    rw [Task.costOf_append, Task.costOf_cons]
    dsimp only
    omega

/-- The work of a run never grows. -/
theorem Reaches.work_le (h : m.Reaches n) (hr : m.state.engine.options.maxRounds.toNat = rounds) :
    n.work rounds ≤ m.work rounds := by
  induction h with
  | refl => exact Nat.le_refl _
  | tail reached next ih =>
    have options := (Reaches.lasts reached).options
    exact Nat.le_trans (next.work_le (by rw [options]; exact hr)) ih

theorem Ends.work_le (h : m.Ends) (rounds : Nat) : executed m.outcome.2.events ≤ m.work rounds := by
  cases h with
  | done s => exact Nat.le_refl _
  | stopped hv =>
    rename_i move halt left s
    rw [outcome_stopped hv]
    have made := move.executed_effect_le s rounds
    unfold work
    rw [Task.costOf_cons]
    dsimp only
    omega

end Moment

/-! ## Results -/

namespace RunRequest

/-- A request costs what its screen or its handler costs. -/
theorem costOf_tasks (rounds : Nat) (p : Program) (q : RunRequest) :
    Task.costOf rounds (q.tasks p) = q.cost rounds p := by
  cases q with
  | run entry risk => simp [tasks, Task.showing, Task.starting, Task.cost, cost]
  | dispatch screen handler => simp [tasks, Task.handling, Task.starting, Task.cost, cost]

/-- The end of a run executes nothing. -/
theorem executed_finish (s : RunState) (error : Option RunError) :
    executed (s.finish error).1.events = executed s.events := by
  rw [RunState.finish_eq]
  dsimp only
  rw [RunState.traceWith, executed_append, Nat.add_eq_left]
  apply executed_eq_zero
  intro event closing
  have closing := List.mem_of_mem_take closing
  unfold RunState.closingEvents at closing
  simp only [List.mem_append, List.mem_map, List.mem_singleton] at closing
  rcases closing with (⟨hit, -, rfl⟩ | ⟨e, -, rfl⟩) | rfl <;> exact EventKind.noConfusion

/-- A run executes no more actions than the cost of its request. -/
theorem executed_le_cost {engine : Engine} {p : Program} {q : RunRequest} {r : RunResult}
    (h : (q.step engine p).result = .ok r) :
    executed r.events ≤ q.cost engine.options.maxRounds.toNat p := by
  obtain ⟨store, last, error, -, reached, ends, -, rfl, -⟩ := exists_last h
  rw [executed_finish]
  refine Nat.le_trans (ends.work_le engine.options.maxRounds.toNat) ?_
  refine Nat.le_trans (reached.work_le rfl) ?_
  show executed [] + Task.costOf _ (q.tasks p) ≤ _
  rw [costOf_tasks]
  exact Nat.le_of_eq (Nat.zero_add _)

end RunRequest

/-- A loop that comes to its end has written its variable for the numbers of its range one after the other, no more
of them than the options allow, and has done its body once after each, whatever the body writes. And whatever an
engine is asked for, the actions that are traced are no more than the cost of what is asked for. -/
theorem loops_clamped_and_work_bounded :
    (∀ {depth : Nat} {name range : String} {r : Range} {body : List Action} {s t : RunState},
      Range.ofText? range = some r → Run.action depth (.loop name range body) s = (.ok (), t) →
      r.low ≤ r.high ∧ Run.Turns name (depth + 1) body
        (Run.numbersFrom r.low (max 0 (min (r.high - r.low + 1) s.engine.options.maxRounds)).toNat) s t) ∧
    (∀ {engine : Engine} {p : Program} {q : RunRequest} {r : RunResult}, (q.step engine p).result = .ok r →
      executed r.events ≤ q.cost engine.options.maxRounds.toNat p) := by
  constructor
  · intro depth name range r body s t hr done
    exact ⟨Range.low_le_high hr, Run.turns_of_loop hr done⟩
  · intro engine p q r h
    exact RunRequest.executed_le_cost h

namespace Action

/-- A loop over three numbers whose body writes its variable. -/
def recounting : Action := .loop "i" "3..1" [.update "i" (.literal (.int 9)) "9"]

/-- An engine that allows two rounds. -/
def twice : Engine := .ofOptions { RunOptions.default with maxRounds := 2 }

/-- A program with a handler for this loop. -/
def recounter : Program :=
  ⟨"recounter", "Home", [⟨"Home", [], [], .container .column [], [⟨"go", [recounting]⟩]⟩], [], [], []⟩

/-- The loop has the rounds for 1 and 2. With the action of each round it makes three actions, and costs as many. -/
theorem recounting_twice :
    (∃ t, Run.Turns "i" 2 [.update "i" (.literal (.int 9)) "9"] [1, 2] (Run.first twice (.empty 5)) t) ∧
    ∃ r, ((RunRequest.dispatch "Home" "go").step twice recounter).result = .ok r ∧ executed r.events = 3 ∧
      executed r.events ≤ (RunRequest.dispatch "Home" "go").cost 2 recounter ∧
      (RunRequest.dispatch "Home" "go").cost 2 recounter = 3 := by
  constructor
  · have done : (Run.action 1 recounting (Run.first twice (.empty 5))).1.isOk = true := by decide +kernel
    rcases h : Run.action 1 recounting (Run.first twice (.empty 5)) with ⟨e | ⟨⟩, t⟩
    · rw [h] at done
      cases done
    · have read : Range.ofText? "3..1" = some ⟨1, 3⟩ := by decide +kernel
      exact ⟨t, (loops_clamped_and_work_bounded.1 read h).2⟩
  · have three : ((RunRequest.dispatch "Home" "go").step twice recounter).result.toOption.any
        (fun r => executed r.events == 3) = true := by
      decide +kernel
    obtain ⟨r, h, three⟩ := EngineStep.exists_result three
    exact ⟨r, h, beq_iff_eq.mp three, loops_clamped_and_work_bounded.2 h, by decide⟩

end Action

end Screenplay
