/-
Two runs side by side. What a run has to do depends on little of its state: the variables, the risk that is
accepted, the number of rounds that is allowed, and whether nodes are traced. So one run mirrors another if they
have the same to do, up to moves that only one of them makes, and if every move that both make has the same
verdict and leaves them in related states. Then they have the same outcome, unless the first one stops for a
reason that the relation lets through.
-/
import Screenplay.Proofs.Run.Closing
import Screenplay.Proofs.Run.Moments

namespace Screenplay

/-! ## What tasks depend on -/

/-- A state in which the tasks of another one have the same parts, the tracing of nodes apart. -/
structure RunState.Resembles (t s : RunState) : Prop where
  values : t.store.values = s.store.values
  maxRisk : t.engine.options.maxRisk = s.engine.options.maxRisk
  maxRounds : t.engine.options.maxRounds = s.engine.options.maxRounds

/-- A state in which nodes are not traced. -/
def RunState.quiet (s : RunState) : RunState :=
  { s with engine := { s.engine with options := { s.engine.options with debug := false } } }

namespace Task

variable {s t : RunState} {task : Task} {parts : List Task}

theorem parts_congr (h : t.Resembles s) (debug : t.engine.options.debug = s.engine.options.debug) (task : Task) :
    task.parts? t = task.parts? s := by
  have look : t.store.get? = s.store.get? := by
    funext name
    rw [Store.get?, h.values]
    rfl
  have has : t.store.has = s.store.has := by
    funext name
    rw [Store.has, h.values]
    rfl
  unfold parts? partsOfAction partsOfVisit argument
  rw [look, has, h.maxRisk, h.maxRounds, debug]

/-! ## What tasks trace -/

/-- The kind of event that a task traces by itself. -/
def traces? : Task → Option EventKind
  | .move (.log kind _) => some kind
  | _ => none

/-- The kinds of events that tasks trace, those of nodes apart. -/
def tracedKinds : List EventKind :=
  [.actionExecuted, .stateUpdated, .navigation, .functionCalled, .codeSkipped, .unsupportedExpression]

/-- A task that traces no event by itself, or one of these kinds. -/
def Traces (t : Task) : Prop := ∀ kind, t.traces? = some kind → kind ∈ tracedKinds

theorem Traces.of_none {t : Task} (h : t.traces? = none) : t.Traces := fun _ traced => by
  rw [h] at traced
  cases traced

theorem traces_stop (e : RunError) : (stop e).Traces := .of_none rfl

theorem traces_argument (s : RunState) (arg : Expr) : ∀ t ∈ argument s arg, t.Traces := by
  unfold argument judging
  split <;> simp [stop, Traces, traces?]

theorem traces_writing (name : String) (value : Value) : ∀ t ∈ writing name value, t.Traces := by
  simp [writing, Traces, traces?, tracedKinds]

theorem traces_block (depth : Nat) (as : List Action) : ∀ t ∈ block depth as, t.Traces := by
  simp [block, Traces, traces?]

theorem traces_handler (screen : Screen) (name : String) (asked : Option String) :
    ∀ t ∈ handler screen name asked, t.Traces :=
  forall_handler (traces_stop _) (traces_block 1)

theorem traces_deciding {outcome : Except Value.Overflow Bool} {yes no : List Task}
    (hy : ∀ t ∈ yes, t.Traces) (hn : ∀ t ∈ no, t.Traces) : ∀ t ∈ deciding outcome yes no, t.Traces :=
  forall_deciding (.of_none rfl) hy hn

theorem traces_entering {p : Program} {name : String} {next : Screen → List Task}
    (h : ∀ screen, ∀ t ∈ next screen, t.Traces) : ∀ t ∈ entering p name next, t.Traces := by
  unfold entering
  split
  · next screen _ =>
    refine List.forall_mem_append.mpr ⟨?_, h screen⟩
    simp [Traces, traces?]
  · simpa using traces_stop _

theorem traces_action (s : RunState) (depth : Nat) (a : Action) : ∀ t ∈ partsOfAction s depth a, t.Traces := by
  intro t ht
  cases ofAction_parts s depth a t ht with
  | log h detail =>
    rintro _ ⟨⟩
    exact (by decide : actionEvents ⊆ tracedKinds) h
  | check | depth | express | record | write | stop | arguments | calling | actions | rounds =>
    exact .of_none rfl

theorem traces_visit (s : RunState) (screen : Screen) (pressing : Bool) (node : Node) :
    ∀ t ∈ partsOfVisit s screen pressing node, t.Traces := by
  refine forall_visit (fun _ => .of_none rfl) (fun _ => .of_none rfl) (fun _ _ => .of_none rfl)
    (fun _ => .of_none rfl) ?_
  intro navigation name as
  exact forall_press (fun _ => traces_stop _) (traces_block 1)

theorem traces_below (screen : Screen) (depth : Nat) (pressing : Bool) (node : Node) :
    ∀ t ∈ partsBelow screen depth pressing node, t.Traces := by
  cases node <;> simp [partsBelow, Traces, traces?]

/-- The parts of a task trace events of these kinds, if nodes are not traced. -/
theorem traces_parts (h : task.parts? s = some parts) (quiet : s.engine.options.debug = false) :
    ∀ t ∈ parts, t.Traces := by
  cases task with
  | move m => cases h
  | accept p risk =>
    cases risk with
    | none => cases h; simp [Traces, traces?]
    | some found => cases h; split <;> simp [stop, Traces, traces?]
  | missing name value =>
    cases h
    split
    · exact List.forall_mem_nil _
    · exact traces_writing name value
  | seed vs => cases vs <;> cases h <;> simp [Traces, traces?]
  | arguments args =>
    cases args with
    | nil => cases h; exact List.forall_mem_nil _
    | cons arg args =>
      cases h
      exact List.forall_mem_append.mpr ⟨traces_argument s arg, by simp [Traces, traces?]⟩
  | calling function texts args =>
    cases args with
    | nil => cases h; simp [Traces, traces?, tracedKinds]
    | cons arg args =>
      cases h
      exact List.forall_mem_append.mpr ⟨traces_argument s arg, by simp [Traces, traces?]⟩
  | action depth a => cases h; exact traces_action s depth a
  | actions depth as => cases as <;> cases h <;> simp [Traces, traces?, tracedKinds]
  | rounds name depth body n i => cases n <;> cases h <;> simp [writing, block, Traces, traces?, tracedKinds]
  | measure binding => cases h; simp [Traces, traces?]
  | visit screen pressing node => cases h; exact traces_visit s screen pressing node
  | branch screen depth pressing condition thenBranch elseBranch =>
    cases h
    exact traces_deciding (by simp [Traces, traces?]) (by simp [Traces, traces?])
  | walk screen depth pressing node =>
    cases h
    -- the event of a node would come first, but is not asked for
    rw [quiet]
    refine List.forall_mem_append.mpr ⟨List.forall_mem_cons.mpr ⟨.of_none rfl, ?_⟩, by simp [Traces, traces?]⟩
    exact List.forall_mem_cons.mpr ⟨.of_none rfl, traces_below screen (depth + 1) pressing node⟩
  | present p name => cases h; exact traces_entering fun screen => by simp [Traces, traces?]
  | handle p name called =>
    cases h
    refine traces_entering fun screen => List.forall_mem_append.mpr ⟨traces_handler _ _ _, ?_⟩
    simp [Traces, traces?]

/-- Whether a task does nothing but trace a node. -/
def renders (t : Task) : Bool := t.traces? = some .uiRendered

theorem Traces.not_renders {t : Task} (h : t.Traces) : t.renders = false :=
  decide_eq_false fun rendered => absurd (h _ rendered) (by decide)

theorem filter_renders {ts : List Task} (h : ∀ t ∈ ts, t.Traces) : ts.filter (!·.renders) = ts :=
  List.filter_eq_self.mpr fun t ht => by rw [(h t ht).not_renders]; rfl

/-- Only a walk depends on whether nodes are traced. -/
theorem parts_quiet (s : RunState) (task : Task) :
    task.parts? s.quiet = (task.parts? s).map (·.filter (!·.renders)) := by
  have kept (same : task.parts? s.quiet = task.parts? s) :
      task.parts? s.quiet = (task.parts? s).map (·.filter (!·.renders)) := by
    rw [← same]
    cases hp : task.parts? s.quiet with
    | none => rfl
    | some parts => rw [Option.map_some, filter_renders (traces_parts hp rfl)]
  cases task with
  | walk screen depth pressing node =>
    have below := filter_renders (traces_below screen (depth + 1) pressing node)
    cases hd : s.engine.options.debug <;>
      simp only [parts?, hd, RunState.quiet, Option.map_some, List.filter_append, List.filter_cons, below]
    · rfl
    · rfl
  | accept p risk => exact kept (by cases risk <;> rfl)
  | seed vs => exact kept (by cases vs <;> rfl)
  | arguments args => exact kept (by cases args <;> rfl)
  | calling function texts args => exact kept (by cases args <;> rfl)
  | actions depth as => exact kept (by cases as <;> rfl)
  | rounds name depth body n i => exact kept (by cases n <;> rfl)
  | move | missing | action | measure | visit | branch | present | handle => exact kept rfl

end Task

/-! ## What moves trace -/

namespace Move

/-- What a move traces. -/
def traced : Move → List Event
  | .status entered => [⟨.statusChanged, entered.name⟩]
  | .log kind detail => [⟨kind, detail⟩]
  | _ => []

theorem effect_log (kind : EventKind) (detail : String) (s : RunState) :
    (log kind detail).effect s = s.traced [⟨kind, detail⟩] :=
  s.log_eq_traced kind detail

theorem effect_status (entered : RunStatus) (s : RunState) :
    (status entered).effect s =
      { s.traced [⟨.statusChanged, entered.name⟩] with engine := { s.engine with status := entered } } :=
  s.setStatus_eq_traced entered

theorem effect_events (m : Move) (s : RunState) : (m.effect s).events = s.traceWith m.traced := by
  cases m with
  | log kind detail => rw [effect_log]; rfl
  | status entered => rw [effect_status]; rfl
  | check | vet | depth | track | pause | express | record | write | stop =>
    exact (congrArg RunState.events s.traced_nil).symm

/-- A move traces one event at most. -/
theorem length_effect_le (m : Move) (s : RunState) : (m.effect s).events.length ≤ s.events.length + 1 := by
  have one : m.traced.length ≤ 1 := by cases m <;> simp [traced]
  rw [m.effect_events]
  exact Nat.le_trans (s.length_traceWith_le m.traced) (Nat.add_le_add_left one _)

end Move

/-! ## Side by side -/

/-- States of two runs that go on alike as long as they are related. They have the same to do, but for moves
that the second run leaves out. A move that is left out is always made, and only in the first run; any other one
has the same verdict in both, or stops the first run for a reason that lets it escape. -/
structure Mirrors (skips : Task → Bool) (escapes : Halt → Prop) (R : RunState → RunState → Prop) : Prop where
  parts : ∀ {s t}, R s t → ∀ task : Task, task.parts? t = (task.parts? s).map (·.filter (!skips ·))
  skipped : ∀ {s t}, R s t → ∀ task, skips task = true →
    ∃ move, task = .move move ∧ move.verdict s = .ok () ∧ R (move.effect s) t
  made : ∀ {s t}, R s t → ∀ move, skips (.move move) = false →
    (∃ halt, move.verdict s = .error halt ∧ escapes halt) ∨
      (move.verdict t = move.verdict s ∧ R (move.effect s) (move.effect t))

/-- States of two runs that have the same to do. -/
theorem Mirrors.of_same_parts {escapes : Halt → Prop} {R : RunState → RunState → Prop}
    (parts : ∀ {s t}, R s t → ∀ task : Task, task.parts? t = task.parts? s)
    (made : ∀ {s t}, R s t → ∀ move : Move, (∃ halt, move.verdict s = .error halt ∧ escapes halt) ∨
      (move.verdict t = move.verdict s ∧ R (move.effect s) (move.effect t))) :
    Mirrors (fun _ => false) escapes R where
  parts h task := by
    rw [parts h task]
    cases task.parts? _ with
    | none => rfl
    | some ts => exact congrArg some (List.filter_eq_self.mpr fun _ _ => rfl).symm
  skipped _ _ skips := absurd skips Bool.false_ne_true
  made h move _ := made h move

namespace Mirrors

variable {skips : Task → Bool} {escapes : Halt → Prop} {R : RunState → RunState → Prop}

/-- Two runs side by side come to the same outcome in related states, unless the first one escapes. -/
theorem outcome (mirrors : Mirrors skips escapes R) {m : Moment} {t : RunState} (related : R m.state t) :
    (∃ halt, m.outcome.1 = .error halt ∧ escapes halt) ∨
      ((⟨m.left.filter (!skips ·), t⟩ : Moment).outcome.1 = m.outcome.1 ∧
        R m.outcome.2 (⟨m.left.filter (!skips ·), t⟩ : Moment).outcome.2) := by
  obtain ⟨last, reached, ends⟩ := m.exists_ends
  -- by induction on the moments of the first run, from the first one
  induction reached using Relation.ReflTransGen.head_induction_on generalizing t with
  | refl =>
    cases ends with
    | done s => exact .inr ⟨rfl, related⟩
    | @stopped move halt left s hv =>
      -- a move that is left out is made in the first run
      have kept : skips (.move move) = false := eq_false_of_ne_true fun skipped => by
        obtain ⟨_, ⟨⟩, goes, -⟩ := mirrors.skipped related _ skipped
        rw [hv] at goes
        cases goes
      rw [Moment.outcome_stopped hv]
      rcases mirrors.made related move kept with ⟨halt', hv', escaped⟩ | ⟨same, after⟩
      · rw [hv] at hv'
        cases hv'
        exact .inl ⟨halt, rfl, escaped⟩
      · rw [hv] at same
        rw [List.filter_cons_of_pos (by rw [kept]; rfl), Moment.outcome_stopped same]
        exact .inr ⟨rfl, after⟩
  | @head m n next reached ih =>
    rw [next.outcome_eq]
    cases next with
    | @made move left s hv =>
      cases hs : skips (.move move) with
      | true =>
        -- the second run stays where it is
        obtain ⟨_, ⟨⟩, -, after⟩ := mirrors.skipped related _ hs
        rw [List.filter_cons_of_neg (by rw [hs]; decide)]
        exact ih after
      | false =>
        rcases mirrors.made related move hs with ⟨halt, hv', -⟩ | ⟨same, after⟩
        · rw [hv] at hv'
          cases hv'
        · rw [hv] at same
          rw [List.filter_cons_of_pos (by rw [hs]; rfl), (Moment.Next.made same).outcome_eq]
          exact ih after
    | @opened task parts left s hp =>
      have kept : skips task = false := eq_false_of_ne_true fun skipped => by
        obtain ⟨move, rfl, -⟩ := mirrors.skipped related _ skipped
        cases hp
      have opened := mirrors.parts related task
      rw [hp, Option.map_some] at opened
      rw [List.filter_cons_of_pos (by rw [kept]; rfl), (Moment.Next.opened opened).outcome_eq, ← List.filter_append]
      exact ih related

end Mirrors

/-! ## Results side by side -/

/-- The result that what is left at a moment comes to. -/
def Moment.result (m : Moment) : Except Breakdown RunResult :=
  match m.outcome with
  | (.ok (), s) => .ok (s.finish none).1
  | (.error (.error e), s) => .ok (s.finish (some e)).1
  | (.error (.breakdown b), _) => .error b

/-- The result of a request is the one that its first moment comes to. -/
theorem RunRequest.result_eq {engine : Engine} {store : Store} (hs : engine.storeForRun = .ok store) (p : Program)
    (q : RunRequest) : (q.step engine p).result = (q.first engine p store).result := by
  rcases RunRequest.step_of_reaches hs (q := q) (p := p) .refl with ⟨error, ended, step⟩ | ⟨b, broken, step⟩
  · rw [step, Moment.result]
    rcases ho : (q.first engine p store).outcome with ⟨outcome, last⟩
    rw [ho] at ended
    cases error <;> cases ended <;> rfl
  · rw [step, Moment.result]
    rcases ho : (q.first engine p store).outcome with ⟨outcome, last⟩
    rw [ho] at broken
    cases broken
    rfl

/-- Two results, or none for the same reason. -/
inductive BothReturn (Q : RunResult → RunResult → Prop) :
    Except Breakdown RunResult → Except Breakdown RunResult → Prop where
  | returned {r r' : RunResult} (h : Q r r') : BothReturn Q (.ok r) (.ok r')
  | broken (b : Breakdown) : BothReturn Q (.error b) (.error b)

/-- Two runs side by side come to results that are related if those of related states are, unless the first one
escapes. -/
theorem Mirrors.result {skips : Task → Bool} {escapes : Halt → Prop} {R : RunState → RunState → Prop}
    {Q : RunResult → RunResult → Prop} (mirrors : Mirrors skips escapes R)
    (finished : ∀ {s t}, R s t → ∀ error, Q (s.finish error).1 (t.finish error).1) {m : Moment} {t : RunState}
    (related : R m.state t) :
    (∃ halt, m.outcome.1 = .error halt ∧ escapes halt) ∨
      BothReturn Q m.result (⟨m.left.filter (!skips ·), t⟩ : Moment).result := by
  refine (mirrors.outcome related).imp_right fun ⟨same, after⟩ => ?_
  unfold Moment.result
  rcases hm : m.outcome with ⟨outcome, last⟩
  rcases hn : (⟨m.left.filter (!skips ·), t⟩ : Moment).outcome with ⟨outcome', last'⟩
  rw [hm, hn] at same after
  cases same
  rcases outcome with (e | b) | ⟨⟩
  · exact .returned (finished after _)
  · exact .broken b
  · exact .returned (finished after _)

/-- An engine without a store for the run has no result. -/
theorem RunRequest.result_of_error {engine : Engine} {b : Breakdown} (h : engine.storeForRun = .error b) (p : Program)
    (q : RunRequest) : (q.step engine p).result = .error b := by
  rw [step_eq_perform, Engine.perform, h]

/-- Two requests side by side, if the second run leaves out none of the tasks of the request. -/
theorem Mirrors.request {skips : Task → Bool} {escapes : Halt → Prop} {R : RunState → RunState → Prop}
    {Q : RunResult → RunResult → Prop} (mirrors : Mirrors skips escapes R)
    (finished : ∀ {s t}, R s t → ∀ error, Q (s.finish error).1 (t.finish error).1) {p : Program} {q : RunRequest}
    (kept : ∀ t ∈ q.tasks p, skips t = false) {engine other : Engine}
    (none : ∀ b, engine.storeForRun = .error b → other.storeForRun = .error b)
    (some : ∀ store, engine.storeForRun = .ok store →
      ∃ store', other.storeForRun = .ok store' ∧ R (Run.first engine store) (Run.first other store')) :
    (∃ store halt, engine.storeForRun = .ok store ∧ (q.first engine p store).outcome.1 = .error halt ∧
        escapes halt) ∨
      BothReturn Q (q.step engine p).result (q.step other p).result := by
  have all : (q.tasks p).filter (!skips ·) = q.tasks p :=
    List.filter_eq_self.mpr fun t ht => by rw [kept t ht]; rfl
  cases hs : engine.storeForRun with
  | error b =>
    rw [RunRequest.result_of_error hs, RunRequest.result_of_error (none b hs)]
    exact .inr (.broken b)
  | ok store =>
    obtain ⟨store', hs', related⟩ := some store hs
    have both := mirrors.result finished (m := q.first engine p store) related
    rw [show (q.first engine p store).left.filter (!skips ·) = q.tasks p from all] at both
    rw [RunRequest.result_eq hs, RunRequest.result_eq hs']
    exact both.imp_left fun ⟨halt, stopped, escaped⟩ => ⟨store, halt, rfl, stopped, escaped⟩

/-- Two requests side by side of which the first one never escapes: the second result is made from the first one,
if that has a property. -/
theorem Mirrors.request_map {skips : Task → Bool} {R : RunState → RunState → Prop}
    (mirrors : Mirrors skips (fun _ => False) R) {P : RunResult → Prop} {f : RunResult → RunResult}
    (finished : ∀ {s t}, R s t → ∀ error, P (s.finish error).1 → (t.finish error).1 = f (s.finish error).1)
    {p : Program} {q : RunRequest} (kept : ∀ t ∈ q.tasks p, skips t = false) {engine other : Engine}
    (none : ∀ b, engine.storeForRun = .error b → other.storeForRun = .error b)
    (some : ∀ store, engine.storeForRun = .ok store →
      ∃ store', other.storeForRun = .ok store' ∧ R (Run.first engine store) (Run.first other store'))
    (hp : ∀ r, (q.step engine p).result = .ok r → P r) :
    (q.step other p).result = (q.step engine p).result.map f := by
  have both := mirrors.request (Q := fun r r' => P r → r' = f r) finished kept none some
  generalize (q.step engine p).result = x at both hp
  generalize (q.step other p).result = y at both
  rcases both with ⟨_, _, -, -, ⟨⟩⟩ | both
  cases both with
  | returned made => rw [made (hp _ rfl)]; rfl
  | broken b => rfl

end Screenplay
