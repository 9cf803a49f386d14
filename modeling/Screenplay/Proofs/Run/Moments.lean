/-
The moments of a run. At a moment of a run a list of tasks is left: the first one is a move, which is made, or
it is replaced by its parts. What is left at a moment comes to the outcome of the whole run, and every run
comes to its end.
-/
import Mathlib.Logic.Relation
import Screenplay.Proofs.Run.Results
import Screenplay.Proofs.Run.Tasks

namespace Screenplay

/-! ## Moments -/

/-- A moment of a run: what is left to do, in a state. -/
structure Moment where
  left : List Task
  state : RunState

namespace Moment

/-- The outcome that what is left comes to. -/
def outcome (m : Moment) : Except Halt Unit × RunState := Task.runAll m.left m.state

/-- The next moment: the first task is a move that is made, or it is replaced by its parts. -/
inductive Next : Moment → Moment → Prop where
  | made {move : Move} {left : List Task} {s : RunState} (h : move.verdict s = .ok ()) :
    Next ⟨.move move :: left, s⟩ ⟨left, move.effect s⟩
  | opened {task : Task} {parts left : List Task} {s : RunState} (h : task.parts? s = some parts) :
    Next ⟨task :: left, s⟩ ⟨parts ++ left, s⟩

/-- The moments that follow one, itself included. -/
abbrev Reaches : Moment → Moment → Prop := Relation.ReflTransGen Next

/-- The last moment of a run: nothing is left, or the first task is a move that stops. -/
inductive Ends : Moment → Prop where
  | done (s : RunState) : Ends ⟨[], s⟩
  | stopped {move : Move} {halt : Halt} {left : List Task} {s : RunState}
    (h : move.verdict s = .error halt) : Ends ⟨.move move :: left, s⟩

/-- A move that does not stop the run is made. -/
theorem Next.made_of_isOk {move : Move} {left : List Task} {s : RunState} (h : (move.verdict s).isOk = true) :
    Next ⟨.move move :: left, s⟩ ⟨left, move.effect s⟩ := by
  cases hv : move.verdict s with
  | ok done => exact .made hv
  | error halt =>
    rw [hv] at h
    cases h

theorem Next.outcome_eq {m n : Moment} (h : Next m n) : m.outcome = n.outcome := by
  cases h with
  | made h =>
    rw [outcome, Task.runAll, Run.bind_run, Task.run, Move.run_eq, h]
    rfl
  | opened h =>
    rw [outcome, outcome, Task.runAll, Task.runAll_append]
    exact Task.bind_run_congr (Task.run_eq_parts h) _

/-- Every moment of a run comes to its outcome. -/
theorem Reaches.outcome_eq {m n : Moment} (h : Reaches m n) : m.outcome = n.outcome := by
  induction h with
  | refl => rfl
  | tail _ next ih => exact ih.trans next.outcome_eq

/-- What every next moment keeps, every later moment has. -/
theorem Reaches.keeps {P : Moment → Prop} (step : ∀ m n, Next m n → P m → P n) {m n : Moment}
    (h : Reaches m n) (hm : P m) : P n := by
  induction h with
  | refl => exact hm
  | tail _ next ih => exact step _ _ next ih

/-- The moment that follows, if any does. -/
def next? : Moment → Option Moment
  | ⟨[], _⟩ => none
  | ⟨.move move :: left, s⟩ =>
    match move.verdict s with
    | .ok () => some ⟨left, move.effect s⟩
    | .error _ => none
  | ⟨task :: left, s⟩ => (task.parts? s).map fun parts => ⟨parts ++ left, s⟩

/-- The moment after some steps, or the last one. -/
def after : Nat → Moment → Moment
  | 0, m => m
  | n + 1, m => (m.next?.map (after n)).getD m

theorem next_of_next? {m n : Moment} (h : m.next? = some n) : Next m n := by
  unfold next? at h
  split at h
  · cases h
  · split at h
    · next hv => cases h; exact .made hv
    · cases h
  · obtain ⟨parts, hp, rfl⟩ := Option.map_eq_some_iff.mp h
    exact .opened hp

theorem reaches_after (n : Nat) (m : Moment) : m.Reaches (m.after n) := by
  induction n generalizing m with
  | zero => exact .refl
  | succ n ih =>
    rw [after]
    cases hn : m.next? with
    | none => exact .refl
    | some next => exact .head (next_of_next? hn) (ih next)

theorem outcome_stopped {move : Move} {halt : Halt} {s : RunState} (h : move.verdict s = .error halt)
    (left : List Task) : outcome ⟨.move move :: left, s⟩ = (.error halt, move.effect s) := by
  rw [outcome, Task.runAll, Run.bind_run, Task.run, Move.run_eq, h]

end Moment

/-! ## What lasts -/

/-- What no move of a run changes; nor does any take back that the end of the run was asked for. -/
structure RunState.Lasts (s t : RunState) : Prop where
  options : t.engine.options = s.engine.options
  around : t.engine.around = s.engine.around
  statistics : t.engine.statistics = s.engine.statistics
  baseline : t.baseline = s.baseline
  cancelled : s.engine.cancelled = true → t.engine.cancelled = true

theorem RunState.Lasts.refl (s : RunState) : s.Lasts s := ⟨rfl, rfl, rfl, rfl, id⟩

theorem RunState.Lasts.trans {s t u : RunState} (h : s.Lasts t) (g : t.Lasts u) : s.Lasts u :=
  ⟨g.options.trans h.options, g.around.trans h.around, g.statistics.trans h.statistics, g.baseline.trans h.baseline,
    fun cancelled => g.cancelled (h.cancelled cancelled)⟩

theorem Move.lasts (m : Move) (s : RunState) : s.Lasts (m.effect s) := by
  cases m with
  | status entered =>
    obtain ⟨events, eq⟩ := s.setStatus_eq entered
    rw [effect, eq]
    exact ⟨rfl, rfl, rfl, rfl, id⟩
  | log kind detail =>
    obtain ⟨events, eq, -⟩ := s.log_eq kind detail
    rw [effect, eq]
    exact ⟨rfl, rfl, rfl, rfl, id⟩
  | write name value =>
    rw [effect, Engine.afterWrite]
    split <;> exact ⟨rfl, rfl, rfl, rfl, fun cancelled => by simp [Engine.inquire, cancelled]⟩
  | pause => exact ⟨rfl, rfl, rfl, rfl, fun cancelled => by simp [effect, Engine.inquire, cancelled]⟩
  | check | vet | depth | track | express | record | stop => exact ⟨rfl, rfl, rfl, rfl, id⟩

theorem Moment.Next.lasts {m n : Moment} (h : Next m n) : m.state.Lasts n.state := by
  cases h with
  | made => exact Move.lasts _ _
  | opened => exact .refl _

theorem Moment.Reaches.lasts {m n : Moment} (h : Reaches m n) : m.state.Lasts n.state :=
  h.keeps (P := fun n => m.state.Lasts n.state) (fun _ _ next hm => hm.trans next.lasts) (.refl _)

/-- The outcome of a run has what lasts, too. -/
theorem Moment.Ends.lasts {m : Moment} (h : m.Ends) : m.state.Lasts m.outcome.2 := by
  cases h with
  | done => exact .refl _
  | stopped hv =>
    rw [outcome_stopped hv]
    exact Move.lasts _ _

/-! ## The end of a run -/

mutual

/-- A bound of the moments that an action takes. -/
def Action.span : Action → Nat
  | .navigate n => 5 + 3 * n.args.length
  | .update .. => 6
  | .call _ args => 4 + 3 * args.length
  | .branch _ thenActions elseActions => 4 + spanOf thenActions + spanOf elseActions
  | .loop _ range body =>
    2 + ((Range.ofText? range).map (·.length.toNat)).getD 0 * (6 + spanOf body)
  | .code _ => 3

/-- A bound of the moments that some actions take. -/
def Action.spanOf : List Action → Nat
  | [] => 1
  | a :: as => 4 + span a + spanOf as

end

namespace Task

/-- A bound of the moments that a handler takes. -/
def spanOfHandler (screen : Screen) (name : String) : Nat :=
  match screen.handler? name with
  | some h => 1 + Action.spanOf h.body
  | none => 1

/-- A bound of the moments that the visit of a node takes. -/
def spanOfVisit (screen : Screen) : Node → Nat
  | .button _ navigation name as =>
    3 + Action.spanOf as + (name.map (spanOfHandler screen)).getD 0
      + (navigation.map fun n => 1 + Action.spanOf [.navigate n]).getD 0
  | _ => 7

mutual

/-- A bound of the moments that a walk takes. -/
def spanOfWalk (screen : Screen) : Node → Nat
  | .container layout nodes => 4 + spanOfVisit screen (.container layout nodes) + spanOfWalks screen nodes
  | .list binding template => 4 + spanOfVisit screen (.list binding template) + spanOfWalk screen template
  | .conditional condition thenBranch elseBranch =>
    6 + spanOfVisit screen (.conditional condition thenBranch elseBranch) + spanOfWalk screen thenBranch
      + spanOfElse screen elseBranch
  | node => 4 + spanOfVisit screen node

/-- A bound of the moments that some walks take. -/
def spanOfWalks (screen : Screen) : List Node → Nat
  | [] => 0
  | n :: ns => spanOfWalk screen n + spanOfWalks screen ns

/-- A bound of the moments that the walk over an optional node takes. -/
def spanOfElse (screen : Screen) : Option Node → Nat
  | none => 0
  | some n => spanOfWalk screen n

end

/-- A bound of the moments after a screen is entered. -/
def spanOfEntering (p : Program) (name : String) (next : Screen → Nat) : Nat :=
  match p.screen? name with
  | some screen => 4 + 5 * screen.state.length + next screen
  | none => 2

/-- A bound of the moments that a task takes. -/
def span : Task → Nat
  | .move _ => 1
  | .accept .. => 2
  | .missing .. => 4
  | .seed vs => 1 + 5 * vs.length
  | .arguments args => 1 + 3 * args.length
  | .calling _ _ args => 2 + 3 * args.length
  | .action _ a => a.span
  | .actions _ as => Action.spanOf as
  | .rounds _ _ body n _ => 1 + n * (6 + Action.spanOf body)
  | .measure _ => 2
  | .visit screen _ node => spanOfVisit screen node
  | .branch screen _ _ _ thenBranch elseBranch => 2 + spanOfWalk screen thenBranch + spanOfElse screen elseBranch
  | .walk screen _ _ node => spanOfWalk screen node
  | .present p name => spanOfEntering p name fun screen => spanOfWalk screen screen.ui
  | .handle p name called => spanOfEntering p name fun screen => spanOfHandler screen called

/-- A bound of the moments that some tasks take. -/
def spanOf (ts : List Task) : Nat := total (ts.map span)

@[simp] theorem spanOf_nil : spanOf [] = 0 := rfl

@[simp] theorem spanOf_cons (t : Task) (ts : List Task) : spanOf (t :: ts) = t.span + spanOf ts := rfl

@[simp] theorem spanOf_append (ts us : List Task) : spanOf (ts ++ us) = spanOf ts + spanOf us := by
  simp [spanOf]

@[simp] theorem spanOf_writing (name : String) (value : Value) : spanOf (writing name value) = 3 := rfl

@[simp] theorem spanOf_block (depth : Nat) (as : List Action) :
    spanOf (block depth as) = 1 + Action.spanOf as := rfl

@[simp] theorem span_stop (e : RunError) : (stop e).span = 1 := rfl

@[simp] theorem spanOf_argument (s : RunState) (arg : Expr) : spanOf (argument s arg) = 2 := by
  unfold argument judging
  split <;> rfl

@[simp] theorem spanOf_handler (screen : Screen) (name : String) (asked : Option String) :
    spanOf (handler screen name asked) = spanOfHandler screen name := by
  unfold handler spanOfHandler
  cases screen.handler? name <;> rfl

@[simp] theorem spanOf_walks (screen : Screen) (depth : Nat) (pressing : Bool) (nodes : List Node) :
    spanOf (nodes.map (.walk screen depth pressing)) = spanOfWalks screen nodes := by
  induction nodes with
  | nil => rfl
  | cons n ns ih => simp [spanOfWalks, span, ih]

@[simp] theorem span_move (m : Move) : span (.move m) = 1 := rfl

theorem spanOf_deciding_le (outcome : Except Value.Overflow Bool) (yes no : List Task) :
    spanOf (deciding outcome yes no) ≤ 1 + spanOf yes + spanOf no := by
  rcases outcome with ⟨⟨⟩⟩ | ⟨_ | _⟩ <;> simp [deciding] <;> omega

theorem spanOf_action (s : RunState) (depth : Nat) (a : Action) :
    spanOf (partsOfAction s depth a) < a.span := by
  cases a with
  | navigate n =>
    rw [partsOfAction, Action.span]
    split
    · simp; omega
    · simp [span]; omega
  | update name value source =>
    rw [partsOfAction, Action.span]
    split <;> simp
  | call function args =>
    rw [partsOfAction, Action.span]
    split
    · simp; omega
    · simp [span]; omega
  | branch condition thenActions elseActions =>
    have h := spanOf_deciding_le (condition.holds s.store.get?) (block (depth + 1) thenActions)
      (block (depth + 1) elseActions)
    rw [partsOfAction, Action.span]
    simp only [spanOf_block] at h
    omega
  | loop name range body =>
    rw [partsOfAction, Action.span]
    split
    · simp; omega
    · cases Range.ofText? range with
      | none => simp
      | some r =>
        -- the span counts every number of the range, of which the run may take fewer
        have clamped : (min r.length s.engine.options.maxRounds).toNat ≤ r.length.toNat := by omega
        have h := Nat.mul_le_mul_right (6 + Action.spanOf body) clamped
        simp [span]
        omega
  | code text => simp [partsOfAction, Action.span]

theorem spanOf_visit (s : RunState) (screen : Screen) (pressing : Bool) (node : Node) :
    spanOf (partsOfVisit s screen pressing node) < spanOfVisit screen node := by
  cases node with
  | button label navigation name as =>
    rw [partsOfVisit, spanOfVisit]
    split
    · unfold press
      cases name <;> cases navigation <;> simp <;> omega
    · simp; omega
  | _ => simp [partsOfVisit, spanOfVisit, span]

theorem spanOf_below (screen : Screen) (depth : Nat) (pressing : Bool) (node : Node) :
    3 + spanOfVisit screen node + spanOf (partsBelow screen depth pressing node) < spanOfWalk screen node := by
  cases node with
  | container | list | conditional => simp [partsBelow, spanOfWalk, span]; try omega
  | _ => simp [partsBelow, spanOfWalk]

theorem spanOf_entering {p : Program} {name : String} {next : Screen → List Task} {bound : Screen → Nat}
    (h : ∀ screen, spanOf (next screen) ≤ 1 + bound screen) :
    spanOf (entering p name next) < spanOfEntering p name bound := by
  unfold entering spanOfEntering
  cases p.screen? name with
  | none => simp
  | some screen =>
    have h := h screen
    simp [span]
    omega

/-- The parts of a task take fewer moments than the task. -/
theorem spanOf_parts {t : Task} {s : RunState} {ts : List Task} (h : t.parts? s = some ts) :
    spanOf ts < t.span := by
  cases t with
  -- a task that opens counts one moment for it, and what is left of its span covers the parts
  | move m => cases h
  | accept p risk =>
    cases risk with
    | none => cases h; simp [span]
    | some found =>
      cases h
      rw [spanOf_cons, apply_ite span, span_stop, span_move, ite_self]
      simp [span]
  | missing name value => cases h; split <;> simp [span]
  | seed vs =>
    cases vs with
    | nil => cases h; simp [span]
    | cons v vs => cases h; simp [span]; omega
  | arguments args =>
    cases args with
    | nil => cases h; simp [span]
    | cons arg args => cases h; simp [span]; omega
  | calling function texts args =>
    cases args with
    | nil => cases h; simp [span]
    | cons arg args => cases h; simp [span]; omega
  | action depth a => cases h; exact spanOf_action s depth a
  | actions depth as =>
    cases as with
    | nil => cases h; simp [span, Action.spanOf]
    | cons a as => cases h; simp [span, Action.spanOf]; omega
  | rounds name depth body n i =>
    cases n with
    | zero => cases h; simp [span]
    | succ n => cases h; simp [span, Nat.succ_mul]; omega
  | measure binding => cases h; simp [span]
  | visit screen pressing node => cases h; exact spanOf_visit s screen pressing node
  | branch screen depth pressing condition thenBranch elseBranch =>
    cases h
    have h := spanOf_deciding_le (condition.holds s.store.get?) [.walk screen depth pressing thenBranch]
      (elseBranch.toList.map (.walk screen depth pressing))
    cases elseBranch with
    | none => simp [span, spanOfElse] at h ⊢; omega
    | some n => simp [span, spanOfElse] at h ⊢; omega
  | walk screen depth pressing node =>
    cases h
    have h := spanOf_below screen (depth + 1) pressing node
    split
    · simp [span]; omega
    · simp [span]; omega
  | present p name =>
    cases h
    refine spanOf_entering fun screen => ?_
    simp only [spanOf_cons, spanOf_nil, span]
    omega
  | handle p name called =>
    cases h
    refine spanOf_entering fun screen => ?_
    simp only [spanOf_append, spanOf_handler, spanOf_cons, spanOf_nil, span_move]
    omega

end Task

theorem Task.exists_move {t : Task} {s : RunState} (h : t.parts? s = none) : ∃ m, t = .move m := by
  cases t with
  | move m => exact ⟨m, rfl⟩
  | accept p risk => cases risk <;> cases h
  | seed vs => cases vs <;> cases h
  | arguments args => cases args <;> cases h
  | calling function texts args => cases args <;> cases h
  | actions depth as => cases as <;> cases h
  | rounds name depth body n i => cases n <;> cases h
  | _ => cases h

/-- Every run comes to a last moment. -/
theorem Moment.exists_ends (m : Moment) : ∃ last, m.Reaches last ∧ last.Ends := by
  induction hn : Task.spanOf m.left using Nat.strongRecOn generalizing m with
  | ind n ih =>
    obtain ⟨left, s⟩ := m
    subst hn
    -- what is left takes fewer moments after every move and after every opening of a task
    have after {next : Moment} (h : Next ⟨left, s⟩ next)
        (shorter : Task.spanOf next.left < Task.spanOf left) :
        ∃ last, Reaches ⟨left, s⟩ last ∧ last.Ends := by
      obtain ⟨last, reached, ends⟩ := ih _ shorter next rfl
      exact ⟨last, .head h reached, ends⟩
    cases left with
    | nil => exact ⟨_, .refl, .done s⟩
    | cons t ts =>
      cases ht : t.parts? s with
      | some parts =>
        refine after (.opened ht) ?_
        rw [Task.spanOf_append, Task.spanOf_cons]
        exact Nat.add_lt_add_right (Task.spanOf_parts ht) _
      | none =>
        obtain ⟨move, rfl⟩ := Task.exists_move ht
        cases hv : move.verdict s with
        | error halt => exact ⟨_, .refl, .stopped hv⟩
        | ok done =>
          refine after (.made hv) ?_
          rw [Task.spanOf_cons]
          exact Nat.lt_add_of_pos_left Nat.one_pos

/-! ## Requests -/

/-- What an engine is asked for: to show a screen, by default the start screen, or to run a handler. -/
inductive RunRequest where
  | run (entry : Option String) (risk : Option Risk)
  | dispatch (screen handler : String)

namespace RunRequest

/-- The step of an engine that is asked for something. -/
def step (engine : Engine) (p : Program) : RunRequest → EngineStep (Except Breakdown RunResult)
  | .run entry risk => engine.run p entry risk
  | .dispatch screen handler => engine.dispatch p screen handler

/-- The screen that is shown. -/
def shown (p : Program) (entry : Option String) : String :=
  match entry with
  | none | some "" => p.start
  | some name => name

/-- The tasks of a request. -/
def tasks (p : Program) : RunRequest → List Task
  | .run entry risk => Task.showing p (shown p entry) risk
  | .dispatch screen handler => Task.handling p screen handler

/-- The first moment of a request on a store. -/
def first (engine : Engine) (p : Program) (q : RunRequest) (store : Store) : Moment :=
  ⟨q.tasks p, Run.first engine store⟩

/-- A step performs the tasks of the request. -/
theorem step_eq_perform (engine : Engine) (p : Program) (q : RunRequest) :
    q.step engine p = engine.perform (Task.runAll (q.tasks p)) := by
  cases q with
  | run entry risk => rw [tasks, Task.runAll_showing]; rfl
  | dispatch screen handler => rw [tasks, Task.runAll_handling]; rfl

/-- The outcome of a run that has come to its end with an error or without one. -/
def ended : Option RunError → Except Halt Unit
  | none => .ok ()
  | some e => .error (.error e)

/-- The step of a request at any moment of it: what is left leads to an end, which is told in the result and
counted, or to a breakdown, which leaves the engine as it is. -/
theorem step_of_reaches {engine : Engine} {p : Program} {q : RunRequest} {store : Store}
    (hs : engine.storeForRun = .ok store) {m : Moment} (h : (q.first engine p store).Reaches m) :
    (∃ error, m.outcome.1 = ended error ∧
        q.step engine p = ⟨.ok (m.outcome.2.finish error).1,
          (m.outcome.2.finish error).2.engine.keep (m.outcome.2.finish error).2.store,
          (m.outcome.2.finish error).2.heard⟩) ∨
      ∃ b, m.outcome.1 = .error (.breakdown b) ∧
        q.step engine p = ⟨.error b, m.outcome.2.engine.keep m.outcome.2.store, m.outcome.2.heard⟩ := by
  rw [step_eq_perform, Engine.perform, hs, ← h.outcome_eq]
  dsimp only
  have outcome : Task.runAll (q.tasks p) ⟨engine, store, store.memory, [], [], []⟩ =
      (q.first engine p store).outcome := rfl
  rw [RunState.perform, outcome]
  rcases (q.first engine p store).outcome with ⟨(e | b) | ⟨⟩, last⟩
  · exact .inl ⟨some e, rfl, rfl⟩
  · exact .inr ⟨b, rfl, rfl⟩
  · exact .inl ⟨none, rfl, rfl⟩

/-- A request that has a result has come to a last moment, whose outcome has been told and counted. -/
theorem exists_last {engine : Engine} {p : Program} {q : RunRequest} {r : RunResult}
    (h : (q.step engine p).result = .ok r) :
    ∃ store last error, engine.storeForRun = .ok store ∧ (q.first engine p store).Reaches last ∧ last.Ends ∧
      last.outcome.1 = ended error ∧ r = (last.outcome.2.finish error).1 ∧
      (q.step engine p).engine =
        (last.outcome.2.finish error).2.engine.keep (last.outcome.2.finish error).2.store := by
  obtain ⟨store, hs, -⟩ := Engine.perform_ok (step_eq_perform engine p q ▸ h)
  obtain ⟨last, reached, ends⟩ := (q.first engine p store).exists_ends
  rcases step_of_reaches hs reached with ⟨error, outcome, step⟩ | ⟨b, -, step⟩ <;> rw [step] at h ⊢ <;> cases h
  exact ⟨store, last, error, hs, reached, ends, outcome, rfl, rfl⟩

end RunRequest

end Screenplay
