/-
Runs that come to a result. Whatever fails in a program, and whatever is asked for, a run comes to a result
that tells of the state at its end, and it is counted; unless a condition compares a number with a whole
number that is too large to be a floating point number, or a text is needed that there is no room for. Then
the run breaks down, with no result.
-/
import Screenplay.Program.Parser
import Screenplay.Proofs.Run.Moments

namespace Screenplay

/-! ## Comparisons -/

/-- A whole number that rounds to no finite floating point number. -/
def Value.Large (v : Value) : Prop := ∃ n, v = .int n ∧ floatLimit ≤ n.natAbs

/-- A number, that is a value that is compared as a floating point number. -/
def Value.Numeric (v : Value) : Prop := v.toFloat?.isSome = true

theorem Value.toFloat?_overflow_iff {v : Value} : v.toFloat? = some (.error .overflow) ↔ v.Large := by
  cases v with
  | int n =>
    by_cases h : n.natAbs < floatLimit
    · simp [toFloat?, floatOfInt?, Large, h]
    · simp [toFloat?, floatOfInt?, Large, h, Nat.le_of_not_lt h]
  | null | bool | float | text | list | map => simp [toFloat?, Large]

theorem Value.equal_overflow_iff {a b : Value} :
    a.equal b = .error .overflow ↔ a.Numeric ∧ b.Numeric ∧ (a.Large ∨ b.Large) := by
  rw [← toFloat?_overflow_iff, ← toFloat?_overflow_iff, Numeric, Numeric]
  unfold equal
  split
  · simp [toFloat?]
  · simp [toFloat?]
  · rcases a.toFloat? with _ | ⟨⟨⟩ | x⟩ <;> rcases b.toFloat? with _ | ⟨⟨⟩ | y⟩ <;>
      simp [bind, Except.bind, pure, Except.pure]

/-- A condition that compares two numbers, one of them too large. -/
def Expr.ComparesLarge (look : String → Option Value) (condition : Expr) : Prop :=
  ∃ left right a b, condition = .binary .eq left right ∧
    (∀ x y, ¬ (left = .var x ∧ right = .var y)) ∧
    side? look left = some a ∧ side? look right = some b ∧
    a.Numeric ∧ b.Numeric ∧ (a.Large ∨ b.Large)

theorem Expr.holds_overflow_iff {look : String → Option Value} {condition : Expr} :
    condition.holds look = .error .overflow ↔ condition.ComparesLarge look := by
  constructor
  · intro h
    unfold holds at h
    split at h
    · cases h
    · cases h
    · next left right other =>
      split at h
      · next a b ha hb =>
        exact ⟨left, right, a, b, rfl, fun x y hv => other x y hv.1 hv.2, ha, hb,
          Value.equal_overflow_iff.mp h⟩
      · cases h
    · cases h
  · rintro ⟨left, right, a, b, rfl, other, ha, hb, large⟩
    unfold holds
    split
    · next he => cases he
    · next he => cases he; exact absurd ⟨rfl, rfl⟩ (other _ _)
    · next he =>
      cases he
      rw [ha, hb]
      exact Value.equal_overflow_iff.mpr large
    · next general => exact absurd rfl (general left right)

/-! ## Breakdowns -/

namespace Task

/-- The condition that a task decides. -/
def condition? : Task → Option Expr
  | .action _ (.branch condition _ _) | .branch _ _ _ condition _ _ => some condition
  | _ => none

/-- The task that breaks a run down. -/
abbrev breakdown (b : Breakdown) : Task := .move (.stop (.breakdown b))

variable {t : Task} {ts : List Task} {s : RunState} {b : Breakdown}

theorem parts_of_overflow {condition : Expr} (h : t.condition? = some condition)
    (large : condition.ComparesLarge s.store.get?) : t.parts? s = some [breakdown .overflow] := by
  have overflow := Expr.holds_overflow_iff.mpr large
  cases t with
  | branch =>
    cases h
    rw [parts?, overflow, deciding]
  | action depth a =>
    cases a with
    | branch =>
      cases h
      rw [parts?, partsOfAction, overflow, deciding]
    | navigate | update | call | loop | code => cases h
  | move | accept | missing | seed | arguments | calling | actions | rounds | measure | visit | walk
  | present | handle => cases h

theorem not_breakdown_argument (arg : Expr) : breakdown b ∉ argument s arg := by
  unfold argument judging
  split <;> simp [stop]

theorem not_breakdown_block (depth : Nat) (as : List Action) : breakdown b ∉ block depth as := by
  simp [block]

theorem not_breakdown_handler (screen : Screen) (name : String) (asked : Option String) :
    breakdown b ∉ handler screen name asked := by
  unfold handler
  split <;> simp [block, stop]

theorem not_breakdown_press (screen : Screen) (navigation : Option Navigation) (name : Option String)
    (as : List Action) : breakdown b ∉ press screen navigation name as := by
  unfold press
  cases name <;> cases navigation <;>
    simp [not_breakdown_block, not_breakdown_handler]

theorem overflow_of_deciding {condition : Expr} {yes no : List Task} (hy : breakdown b ∉ yes)
    (hn : breakdown b ∉ no) (h : breakdown b ∈ deciding (condition.holds s.store.get?) yes no) :
    condition.ComparesLarge s.store.get? := by
  rw [← Expr.holds_overflow_iff]
  cases ho : condition.holds s.store.get? with
  | error => rfl
  | ok holds =>
    rw [ho] at h
    cases holds with
    | false => exact absurd h hn
    | true => exact absurd h hy

theorem not_breakdown_entering {p : Program} {name : String} {next : Screen → List Task}
    (h : ∀ screen, breakdown b ∉ next screen) : breakdown b ∉ entering p name next := by
  unfold entering
  split
  · simp [h]
  · simp [stop]

/-- A run breaks down over a condition only. -/
theorem overflow_of_parts (h : t.parts? s = some ts) (hb : breakdown b ∈ ts) :
    ∃ condition, t.condition? = some condition ∧ condition.ComparesLarge s.store.get? := by
  cases t with
  -- only what decides a condition puts a breakdown among its parts; elsewhere there is none to be found
  | move => cases h
  | accept p risk =>
    cases risk with
    | none => cases h; simp at hb
    | some found => cases h; split at hb <;> simp [stop] at hb
  | missing name value => cases h; split at hb <;> simp [writing] at hb
  | seed vs => cases vs <;> cases h <;> simp at hb
  | arguments args => cases args <;> cases h <;> simp [not_breakdown_argument] at hb
  | calling function texts args => cases args <;> cases h <;> simp [not_breakdown_argument] at hb
  | action depth a =>
    cases h
    cases a with
    | branch condition thenActions elseActions =>
      exact ⟨condition, rfl, overflow_of_deciding (not_breakdown_block _ _) (not_breakdown_block _ _) hb⟩
    | navigate n => rw [partsOfAction] at hb; split at hb <;> simp [stop] at hb
    | update name value source =>
      rw [partsOfAction, List.mem_cons] at hb
      rcases hb with hb | hb
      · cases hb
      · split at hb <;> simp [writing] at hb
    | call function args => rw [partsOfAction] at hb; split at hb <;> simp [stop] at hb
    | loop name range body =>
      rw [partsOfAction] at hb
      split at hb
      · simp [stop] at hb
      · split at hb <;> simp [stop] at hb
    | code text => simp [partsOfAction] at hb
  | actions depth as => cases as <;> cases h <;> simp at hb
  | rounds name depth body n i => cases n <;> cases h <;> simp [writing, block] at hb
  | measure => cases h; simp at hb
  | visit screen pressing node =>
    cases h
    cases node with
    | button label navigation name as =>
      rw [partsOfVisit] at hb
      split at hb <;> simp [not_breakdown_press] at hb
    | _ => simp [partsOfVisit] at hb
  | branch screen depth pressing condition thenBranch elseBranch =>
    cases h
    exact ⟨condition, rfl, overflow_of_deciding (by simp) (by simp) hb⟩
  | walk screen depth pressing node =>
    cases h
    cases node <;> split at hb <;> simp [partsBelow] at hb
  | present p name => cases h; exact absurd hb (not_breakdown_entering fun _ => by simp)
  | handle p name called =>
    cases h
    exact absurd hb (not_breakdown_entering fun _ => by simp [not_breakdown_handler])

end Task

namespace Moment

/-- A moment at which a run breaks down: a condition is decided that compares numbers, one of them too large;
a text is needed, and there is no room for it; or more memory has been used than may be, and that cannot be told
because one of the two numbers has too many digits. -/
inductive Breaks : Moment → Breakdown → Prop
  | overflow {t : Task} {left : List Task} {s : RunState} {condition : Expr} (decides : t.condition? = some condition)
    (large : condition.ComparesLarge s.store.get?) : Breaks ⟨t :: left, s⟩ .overflow
  | short {measure : Nat → Option Shortage} {left : List Task} {s : RunState} {shortage : Shortage}
    (h : measure (s.engine.around.room s.engine.contacts) = some shortage) :
    Breaks ⟨.move (.express measure) :: left, s⟩ (.short shortage)
  | untold {left : List Task} {s : RunState} (going : s.engine.inquire.cancelled = false)
    (early : ¬ s.engine.options.maxSeconds < s.engine.around.elapsed s.engine.contacts)
    (spent : s.engine.options.maxMemory < s.store.memory - s.baseline)
    (oversized : Value.isOversized (s.store.memory - s.baseline) = true ∨
      Value.isOversized s.engine.options.maxMemory = true) :
    Breaks ⟨.move .pause :: left, s⟩ (.short .digits)

/-- Too many digits, in one of two numbers, are all that can be wrong with them. -/
theorem wholeShortage?_or_eq_some {a b : Int} {shortage : Shortage} :
    (Value.wholeShortage? a).or (Value.wholeShortage? b) = some shortage ↔
      shortage = .digits ∧ (Value.isOversized a = true ∨ Value.isOversized b = true) := by
  unfold Value.wholeShortage?
  cases Value.isOversized a <;> cases Value.isOversized b <;> simp [eq_comm]

/-- A move that breaks a run down is a task for it, or is made at such a moment. -/
theorem breaks_of_verdict {m : Move} {s : RunState} {b : Breakdown} (h : m.verdict s = .error (.breakdown b))
    (left : List Task) : m = .stop (.breakdown b) ∨ Breaks ⟨.move m :: left, s⟩ b := by
  have settled (outcome : Except Violation Unit) : Move.settled outcome ≠ .error (.breakdown b) := by
    rcases outcome with violation | ⟨⟩ <;> exact nofun
  cases m with
  | status | log | track | record => cases h
  | check | vet => exact absurd h (settled _)
  | depth entity nested =>
    rw [Move.verdict] at h
    split at h <;> cases h
  | pause =>
    -- a checkpoint asks for the end, the time and the memory in this order, and only the last can break the run
    rw [Move.verdict, Move.paused] at h
    split at h
    · cases h
    · next going =>
      split at h
      · cases h
      · next early =>
        split at h
        · next spent =>
          unfold Move.spent at h
          split at h
          · cases h
          · next shortage short =>
            cases h
            obtain ⟨rfl, oversized⟩ := wholeShortage?_or_eq_some.mp short
            exact .inr (.untold (Bool.eq_false_iff.mpr going) early spent oversized)
        · cases h
  | express measure =>
    rw [Move.verdict] at h
    cases short : measure (s.engine.around.room s.engine.contacts) with
    | none => rw [short] at h; cases h
    | some shortage => rw [short] at h; cases h; exact .inr (.short short)
  | write name value =>
    rw [Move.verdict] at h
    split at h <;> cases h
  | stop halt =>
    cases h
    exact .inl rfl

/-- At such a moment the run has no result, and nothing that lasts is changed. -/
theorem Breaks.outcome {m : Moment} {b : Breakdown} (h : m.Breaks b) :
    m.outcome.1 = .error (.breakdown b) ∧ m.state.Lasts m.outcome.2 := by
  have stopped {move : Move} {left : List Task} {s : RunState} (hv : move.verdict s = .error (.breakdown b)) :
      (Moment.outcome ⟨.move move :: left, s⟩).1 = .error (.breakdown b) ∧
        s.Lasts (Moment.outcome ⟨.move move :: left, s⟩).2 := by
    rw [outcome_stopped hv left]
    exact ⟨rfl, move.lasts s⟩
  cases h with
  | @overflow t left s condition decides large =>
    have next : Next ⟨t :: left, s⟩ ⟨Task.breakdown .overflow :: left, s⟩ :=
      .opened (Task.parts_of_overflow decides large)
    rw [next.outcome_eq]
    exact stopped rfl
  | @short measure left s shortage short =>
    refine stopped ?_
    rw [Move.verdict, short]
    rfl
  -- the memory is exceeded, and the message on it is what cannot be written
  | @untold left s going early spent oversized =>
    have short := wholeShortage?_or_eq_some.mpr ⟨rfl, oversized⟩
    have paused : Move.paused s = Move.spent (s.store.memory - s.baseline) s.engine.options.maxMemory := by
      unfold Move.paused
      rw [going, if_neg Bool.false_ne_true, if_neg early, if_pos spent]
    have untold : Move.paused s = .error (.breakdown (.short .digits)) := by
      rw [paused]
      unfold Move.spent
      rw [short]
    exact stopped untold

/-- A run that has met no such moment has no breakdown left. -/
theorem Reaches.no_breakdown {m n : Moment} (h : m.Reaches n)
    (never : ∀ between, m.Reaches between → ∀ b, ¬ between.Breaks b)
    (hm : ∀ b, Task.breakdown b ∉ m.left) : ∀ b, Task.breakdown b ∉ n.left := by
  induction h with
  | refl => exact hm
  | @tail before after reached next ih =>
    intro b hb
    cases next with
    | made => exact ih b (List.mem_cons_of_mem _ hb)
    -- a breakdown among the parts of a task comes from its condition, which would have overflowed before
    | @opened t parts left s hp =>
      rcases List.mem_append.mp hb with hb | hb
      · obtain ⟨condition, decides, large⟩ := Task.overflow_of_parts hp hb
        exact never _ reached .overflow (.overflow decides large)
      · exact ih b (List.mem_cons_of_mem _ hb)

theorem Ends.no_breakdown {m : Moment} (h : m.Ends) (left : ∀ b, Task.breakdown b ∉ m.left)
    (never : ∀ b, ¬ m.Breaks b) (b : Breakdown) : m.outcome.1 ≠ .error (.breakdown b) := by
  cases h with
  | done => exact nofun
  | @stopped move halt later s hv =>
    rw [outcome_stopped hv]
    rintro ⟨⟩
    rcases breaks_of_verdict hv later with rfl | breaks
    · exact left b List.mem_cons_self
    · exact never b breaks

end Moment

/-! ## Results -/

/-- The statuses in which a run can end. -/
def endStatuses : List RunStatus := [.completed, .failed, .timedOut, .outOfMemory, .cancelled]

/-- What a run that ends in some state returns: a result that tells of this state, its trace and the error,
with an engine that has the status of the result and has counted it. -/
structure RunResult.Returned (r : RunResult) (last : RunState) (before after : Engine) : Prop where
  values : r.values = last.store.values
  history : r.history = last.store.history
  memory : r.memory = last.store.memory - last.baseline
  navigations : r.navigations = last.navigations
  events : ∃ closing, r.events = last.events ++ closing ∧ ∀ event ∈ closing, event.kind ∈ closingKinds
  status : r.status = (r.error.map RunError.status).getD .completed
  ended : r.status ∈ endStatuses
  entered : after.status = r.status
  counted : after.statistics = before.statistics.count r.status r.success last.store

namespace RunState

theorem logHits_eq (s : RunState) :
    ∃ events guard, s.logHits = { s with events, engine := { s.engine with guard } } := by
  have logged (hits : List Hit) (t : RunState) :
      ∃ events, hits.foldl (fun s hit => s.log .securityWarning hit.text) t = { t with events } := by
    induction hits generalizing t with
    | nil => exact ⟨t.events, rfl⟩
    | cons hit hits ih =>
      obtain ⟨first, eq, -⟩ := t.log_eq .securityWarning hit.text
      obtain ⟨events, later⟩ := ih { t with events := first }
      exact ⟨events, by rw [List.foldl_cons, eq, later]⟩
  obtain ⟨events, eq⟩ := logged s.engine.guard.hits s
  exact ⟨events, _, by rw [logHits, eq]⟩

theorem logError_eq (s : RunState) (error : Option RunError) :
    ∃ events, s.logError error = { s with events } := by
  cases error with
  | none => exact ⟨s.events, rfl⟩
  | some e =>
    obtain ⟨events, eq, -⟩ := s.log_eq .error e.message
    exact ⟨events, eq⟩

theorem status_mem_endStatuses (error : Option RunError) :
    (error.map RunError.status).getD .completed ∈ endStatuses := by
  cases error with
  | none => decide
  | some e => cases e <;> simp [endStatuses, RunError.status]

/-- All that the end of a run changes is the trace, and the guard and the status of the engine. -/
theorem closing_eq (s : RunState) (error : Option RunError) (status : RunStatus) :
    ∃ events guard, (s.logHits.logError error).setStatus status =
      { s with events, engine := { s.engine with guard, status } } := by
  obtain ⟨warned, guard, hits⟩ := s.logHits_eq
  obtain ⟨failed, logged⟩ := s.logHits.logError_eq error
  obtain ⟨events, closed⟩ := (s.logHits.logError error).setStatus_eq status
  exact ⟨events, guard, by rw [closed, logged, hits]⟩

/-- The end of a run is told in its result, and it is counted. -/
theorem finish_returned (s : RunState) (error : Option RunError) :
    (s.finish error).1.Returned s s.engine (s.finish error).2.engine := by
  have adds := s.finish_adds error
  obtain ⟨events, guard, closed⟩ := s.closing_eq error ((error.map RunError.status).getD .completed)
  dsimp only [finish] at adds ⊢
  rw [closed] at adds ⊢
  -- the guard, the status and the trace are all that has changed since the last moment
  exact ⟨rfl, rfl, rfl, rfl, adds.events, rfl, status_mem_endStatuses error, rfl, rfl⟩

end RunState

/-! ## Whole runs -/

namespace Engine

/-- A store can be had for every run, unless a new one would keep more changes than can be counted. -/
theorem storeForRun_or {engine : Engine} (h : engine.shared = none → 0 ≤ engine.options.maxHistory) :
    (∃ store, engine.storeForRun = .ok store) ∨
      engine.shared = none ∧ historyBound ≤ engine.options.maxHistory ∧
        engine.storeForRun = .error .hugeHistory := by
  unfold storeForRun
  split
  · next store _ => exact .inl ⟨store, rfl⟩
  · next fresh =>
    have positive := h fresh
    rw [newStore]
    by_cases huge : historyBound ≤ engine.options.maxHistory
    · rw [if_pos (.inr huge)]
      exact .inr ⟨fresh, huge, rfl⟩
    · have low : ¬ engine.options.maxHistory < -historyBound := by omega
      rw [if_neg (not_or_intro low huge), if_neg (Int.not_lt.mpr positive)]
      exact .inl ⟨_, rfl⟩

theorem keep_status (engine : Engine) (store : Store) : (engine.keep store).status = engine.status := by
  unfold keep
  split <;> rfl

theorem keep_statistics (engine : Engine) (store : Store) :
    (engine.keep store).statistics = engine.statistics := by
  unfold keep
  split <;> rfl

/-- Whatever an engine is asked for, and whatever goes on around it, it returns a result that tells of the state
at the end of the run, and counts the run, unless the run comes to a moment at which it breaks down. If it does,
there is no result, and the run is not counted; nor is there one if a new store would keep more changes than can
be counted. -/
theorem returns_unless_broken {engine : Engine} (h : engine.shared = none → 0 ≤ engine.options.maxHistory)
    (p : Program) (q : RunRequest) :
    (∃ store, engine.storeForRun = .ok store ∧
      ((∀ m, (q.first engine p store).Reaches m → ∀ b, ¬ m.Breaks b) →
        ∃ r last, (q.step engine p).result = .ok r ∧
          (q.first engine p store).Reaches last ∧ last.Ends ∧
          r.Returned last.outcome.2 engine (q.step engine p).engine) ∧
      ∀ m b, (q.first engine p store).Reaches m → m.Breaks b →
        (q.step engine p).result = .error b ∧ (q.step engine p).engine.statistics = engine.statistics) ∨
    engine.shared = none ∧ historyBound ≤ engine.options.maxHistory ∧
      (q.step engine p).result = .error .hugeHistory ∧ (q.step engine p).engine = engine := by
  obtain ⟨store, hs⟩ | ⟨fresh, huge, hs⟩ := storeForRun_or h
  · refine .inl ⟨store, hs, fun never => ?_, fun m b reached breaks => ?_⟩
    -- a run always ends; if it had ended in a breakdown, some moment on the way would have broken it
    · obtain ⟨last, reached, ends⟩ := (q.first engine p store).exists_ends
      have none_at_first (b : Breakdown) : Task.breakdown b ∉ (q.first engine p store).left := by
        cases q <;> simp [RunRequest.first, RunRequest.tasks, Task.showing, Task.handling, Task.starting]
      have none_at_last := reached.no_breakdown never none_at_first
      obtain ⟨error, -, step⟩ | ⟨b, broken, -⟩ := RunRequest.step_of_reaches hs reached
      · rw [step]
        refine ⟨_, last, rfl, reached, ends, ?_⟩
        have kept : last.outcome.2.engine.statistics = engine.statistics :=
          (reached.lasts.trans ends.lasts).statistics
        have returned := last.outcome.2.finish_returned error
        exact { returned with
          entered := (keep_status _ _).trans returned.entered
          counted := (keep_statistics _ _).trans (kept ▸ returned.counted) }
      · exact absurd broken (ends.no_breakdown none_at_last (never last reached) b)
    · obtain ⟨outcome, lasts⟩ := breaks.outcome
      obtain ⟨error, ended, -⟩ | ⟨other, broken, step⟩ := RunRequest.step_of_reaches hs reached
      · rw [outcome] at ended
        cases error <;> cases ended
      · rw [outcome] at broken
        cases broken
        rw [step]
        exact ⟨rfl, (keep_statistics _ _).trans (reached.lasts.trans lasts).statistics⟩
  · refine .inr ⟨fresh, huge, ?_⟩
    rw [RunRequest.step_eq_perform, perform, hs]
    exact ⟨rfl, rfl⟩

/-- A source text with a condition on a text. -/
def shadeSource : Source :=
  .ofText ("app A \x7b start = H state mode = \"dark\" \x7d\n"
    ++ "screen H \x7b ui \x7b if mode == \"dark\" \x7b label \"night\" \x7d \x7d \x7d") none

/-- The condition is decided without a breakdown; the run is completed, and it is counted. -/
theorem returns_shadeSource :
    ∃ p, (Program.parse .strict shadeSource).1 = .ok p ∧
      ∃ r last, ((ofOptions .default).run p none none).result = .ok r ∧ r.status = .completed ∧
        r.Returned last (ofOptions .default) ((ofOptions .default).run p none none).engine := by
  have told : (Program.parse .strict shadeSource).1.toOption.any (fun p =>
      ((ofOptions .default).run p none none).result.toOption.any (·.status == .completed)) = true := by
    decide +kernel
  cases hp : (Program.parse .strict shadeSource).1 with
  | error e => rw [hp] at told; cases told
  | ok p =>
    rw [hp, Except.toOption, Option.any_some] at told
    obtain ⟨r, h, completed⟩ := EngineStep.exists_result told
    have fresh : (ofOptions .default).shared = none → 0 ≤ (ofOptions .default).options.maxHistory :=
      fun _ => by decide
    obtain ⟨store, -, returns, breaks⟩ | ⟨-, -, broken, -⟩ := returns_unless_broken fresh p (.run none none)
    · obtain ⟨r', last, step, -, -, returned⟩ := returns fun m reached b broken => by
        have none := (breaks m b reached broken).1
        rw [RunRequest.step, h] at none
        cases none
      rw [RunRequest.step, h] at step
      cases step
      exact ⟨p, rfl, r, last.outcome.2, h, beq_iff_eq.mp completed, returned⟩
    · rw [RunRequest.step, h] at broken
      cases broken

/-- A text whose condition compares a whole number of 310 digits. -/
def countlessText : List Char :=
  "app A \x7b start = H \x7d\nscreen H \x7b ui \x7b if 1".toList ++ List.replicate 309 '0'
    ++ " == 1 \x7b label \"x\" \x7d \x7d \x7d".toList

/-- The source of this text. -/
def countlessSource : Source := .ofText (String.ofList countlessText) none

/-- The program is accepted, but its run has no result: the engine is left running, and the run is not counted. -/
theorem not_returns_countlessSource :
    ∃ p, (Program.parse .strict countlessSource).1 = .ok p ∧
      (∀ r, ((ofOptions .default).run p none none).result ≠ .ok r) ∧
      ((ofOptions .default).run p none none).engine.status = .running ∧
      ((ofOptions .default).run p none none).engine.statistics.runs = 0 := by
  have hc : (Program.parse .strict ⟨.ofText countlessText, none⟩).1.toOption.any (fun p =>
      let step := (ofOptions .default).run p none none
      !step.result.isOk && step.engine.status == .running && step.engine.statistics.runs == 0) = true := by
    decide +kernel
  have source : countlessSource = ⟨.ofText countlessText, none⟩ := by
    rw [countlessSource, Source.ofText, String.toList_ofList]
  rw [← source] at hc
  cases hp : (Program.parse .strict countlessSource).1 with
  | error e => rw [hp] at hc; cases hc
  | ok p =>
    rw [hp, Except.toOption, Option.any_some] at hc
    simp only [Bool.and_eq_true, beq_iff_eq, Bool.not_eq_true'] at hc
    refine ⟨p, rfl, fun r hr => ?_, hc.1.2, hc.2⟩
    rw [hr] at hc
    cases hc.1.1

end Engine

end Screenplay
