/-
Runs that are cancelled or use up their memory. A write may use up the budget of a run, and a listener that
hears of it may ask for its end, or somebody else may. From that moment on the run traces no action any more:
wherever a task may lead to such a moment, the run pauses at a checkpoint before the next action starts, and
before it ends.
-/
import Screenplay.Proofs.Run.Moments
import Screenplay.Proofs.Store.Turns

namespace Screenplay

/-! ## Being over -/

/-- The kinds of events that tell of an action that has started. -/
def actionKinds : List EventKind := [.actionExecuted, .navigation, .functionCalled, .codeSkipped]

namespace RunState

/-- A run whose end has been asked for, or that has used more memory than it may. -/
def Over (s : RunState) : Prop :=
  s.engine.cancelled = true ∨ s.engine.options.maxMemory < s.store.memory - s.baseline

/-- A state that traces no action after another one. -/
abbrev Idles (s t : RunState) : Prop := Adds (· ∉ actionKinds) s t

/-- No listener of the store clears it. -/
def Calm (s : RunState) : Prop := ∀ l ∈ s.store.listeners, l.reaction ≠ .clear

end RunState

/-- Whether a run stops for no reason of a checkpoint. -/
def Halt.plain : Halt → Bool
  | .error e => e.status = .failed
  | .breakdown _ => true

namespace Task

/-- Whether a task records an action before the run pauses, or stops the run for a reason of a checkpoint. -/
def starts : Task → Bool
  | .move (.log kind _) => actionKinds.contains kind
  | .move (.stop halt) => !halt.plain
  | .move (.record _) | .action .. | .calling .. => true
  | _ => false

/-- Whether a run pauses or stops in a task before anything follows. -/
def pauses : Task → Bool
  | .move (.stop halt) => halt.plain
  | .move .pause | .present .. | .handle .. => true
  | _ => false

/-- Whether a task may leave a run over that was not so before. -/
def spends : Task → Bool
  | .move (.write ..) | .move (.track _) | .missing .. | .seed _ | .action .. | .actions .. | .rounds ..
  | .measure _ | .visit .. | .branch .. | .walk .. => true
  | _ => false

/-- Tasks in which the run pauses before an action starts, and before all is done. -/
def Paused : List Task → Prop
  | [] => False
  | t :: ts => t.pauses = true ∨ (t.starts = false ∧ Paused ts)

/-- Tasks in which the run pauses after each one that may leave it over. -/
def Guarded : List Task → Prop
  | [] => True
  | t :: ts => (t.spends = true → Paused ts) ∧ Guarded ts

variable {t : Task} {ts us : List Task}

theorem Paused.before (quiet : ∀ t ∈ ts, t.starts = false) (h : Paused us) : Paused (ts ++ us) := by
  induction ts with
  | nil => exact h
  | cons t ts ih =>
    rw [List.forall_mem_cons] at quiet
    exact .inr ⟨quiet.1, ih quiet.2⟩

theorem Paused.append (h : Paused ts) (us : List Task) : Paused (ts ++ us) := by
  induction ts with
  | nil => cases h
  | cons t ts ih => exact h.imp_right fun ⟨quiet, later⟩ => ⟨quiet, ih later⟩

theorem Guarded.before (quiet : ∀ t ∈ ts, t.starts = false) (paused : Paused us) (h : Guarded us) :
    Guarded (ts ++ us) := by
  induction ts with
  | nil => exact h
  | cons t ts ih =>
    rw [List.forall_mem_cons] at quiet
    exact ⟨fun _ => paused.before quiet.2, ih quiet.2⟩

/-- A task that leaves a run as it is may come before any others. -/
theorem Guarded.cons (saves : t.spends = false) (h : Guarded us) : Guarded (t :: us) :=
  ⟨fun spends => absurd spends (by rw [saves]; exact Bool.false_ne_true), h⟩

theorem Guarded.after (saves : ∀ t ∈ ts, t.spends = false) (h : Guarded us) : Guarded (ts ++ us) := by
  induction ts with
  | nil => exact h
  | cons t ts ih =>
    rw [List.forall_mem_cons] at saves
    exact .cons saves.1 (ih saves.2)

/-! ## Parts -/

theorem quiet_argument (s : RunState) (arg : Expr) : ∀ t ∈ argument s arg, t.starts = false := by
  unfold argument judging
  split <;> simp [stop, starts, Halt.plain, RunError.status]

theorem saves_argument (s : RunState) (arg : Expr) : ∀ t ∈ argument s arg, t.spends = false := by
  unfold argument judging
  split <;> simp [stop, spends]

theorem quiet_block (depth : Nat) (as : List Action) : ∀ t ∈ block depth as, t.starts = false := by
  simp [block, starts]

theorem quiet_writing (name : String) (value : Value) : ∀ t ∈ writing name value, t.starts = false := by
  simp [writing, starts, actionKinds]

theorem quiet_handler (screen : Screen) (name : String) (asked : Option String) :
    ∀ t ∈ handler screen name asked, t.starts = false :=
  forall_handler rfl (quiet_block 1)

theorem quiet_deciding {outcome : Except Value.Overflow Bool} {yes no : List Task}
    (hy : ∀ t ∈ yes, t.starts = false) (hn : ∀ t ∈ no, t.starts = false) :
    ∀ t ∈ deciding outcome yes no, t.starts = false :=
  forall_deciding rfl hy hn

theorem quiet_visit (s : RunState) (screen : Screen) (pressing : Bool) (node : Node) :
    ∀ t ∈ partsOfVisit s screen pressing node, t.starts = false := by
  refine forall_visit (fun _ => rfl) (fun _ => rfl) (fun _ _ => rfl) (fun _ => rfl) ?_
  intro navigation name as
  exact forall_press (fun _ => rfl) (quiet_block 1)

theorem quiet_below (screen : Screen) (depth : Nat) (pressing : Bool) (node : Node) :
    ∀ t ∈ partsBelow screen depth pressing node, t.starts = false := by
  cases node <;> simp [partsBelow, starts]

theorem quiet_shown (screen : Screen) : ∀ t ∈ [walk screen 1 true screen.ui], t.starts = false := by
  simp [starts]

/-- A screen is entered quietly, and the run pauses after what is done there. -/
theorem entering_paused {p : Program} {name : String} {next : Screen → List Task}
    (quiet : ∀ screen, ∀ t ∈ next screen, t.starts = false) (h : Guarded us) :
    Paused (entering p name (fun screen => next screen ++ [.move .pause]) ++ us) ∧
      Guarded (entering p name (fun screen => next screen ++ [.move .pause]) ++ us) := by
  unfold entering
  cases p.screen? name with
  | none => exact ⟨.inl rfl, h.cons rfl⟩
  | some screen =>
    have paused : Paused (.move .pause :: us) := .inl rfl
    have guarded : Guarded (.move .pause :: us) := h.cons rfl
    have before : ∀ t ∈ [.move (.vet screen), .seed screen.state] ++ next screen, t.starts = false := by
      simpa [starts] using quiet screen
    simp only [← List.append_assoc]
    rw [List.append_assoc, List.singleton_append]
    exact ⟨paused.before before, guarded.before before paused⟩

theorem guarded_action (s : RunState) (depth : Nat) (a : Action) (paused : Paused us) (h : Guarded us) :
    Guarded (partsOfAction s depth a ++ us) := by
  cases a with
  | navigate n =>
    refine h.after ?_
    rw [partsOfAction]
    split <;> simp [stop, spends]
  | update name value source =>
    refine h.before ?_ paused
    rw [partsOfAction, List.forall_mem_cons]
    refine ⟨rfl, ?_⟩
    split <;> simp [writing, starts, actionKinds]
  | call function args =>
    refine h.after ?_
    rw [partsOfAction]
    split <;> simp [stop, spends]
  | branch condition thenActions elseActions =>
    exact h.before (quiet_deciding (quiet_block _ _) (quiet_block _ _)) paused
  | loop name range body =>
    refine h.before ?_ paused
    rw [partsOfAction]
    split
    · simp [stop, starts, Halt.plain, RunError.status]
    · split <;> simp [stop, starts, Halt.plain, RunError.status]
  | code text => exact h.after (by simp [partsOfAction, spends])

/-- A task that may leave the run over, and is no action, has quiet parts. -/
theorem quiet_parts {s : RunState} (h : t.parts? s = some ts) (spends : t.spends = true)
    (action : t.starts = false) (actions : ∀ depth as, t ≠ .actions depth as) :
    ∀ u ∈ ts, u.starts = false := by
  cases t with
  | move => cases h
  | accept | arguments | calling | present | handle => cases spends
  | action => cases action
  | actions depth as => exact absurd rfl (actions depth as)
  | missing name value =>
    cases h
    split
    · exact List.forall_mem_nil _
    · exact quiet_writing name value
  | seed vs => cases vs <;> cases h <;> simp [starts]
  | rounds name depth body n i =>
    cases n with
    | zero => cases h; exact List.forall_mem_nil _
    | succ n => cases h; simp [writing, block, starts, actionKinds]
  | measure => cases h; simp [starts]
  | visit screen pressing node => cases h; exact quiet_visit s screen pressing node
  | branch screen depth pressing condition thenBranch elseBranch =>
    cases h
    exact quiet_deciding (by simp [starts]) (by simp [starts])
  | walk screen depth pressing node =>
    cases h
    simp only [List.cons_append, List.append_assoc, List.forall_mem_cons, List.forall_mem_append]
    refine ⟨rfl, ?_, rfl, quiet_below screen _ pressing node, rfl, List.forall_mem_nil _⟩
    split <;> simp [starts, actionKinds]

/-- The parts of a task keep the run guarded. -/
theorem guarded_parts {s : RunState} (h : t.parts? s = some ts) (guarded : Guarded (t :: us)) :
    Guarded (ts ++ us) := by
  obtain ⟨paused, later⟩ := guarded
  cases t with
  -- checks and texts leave the run as it is, so what comes later stays as guarded as it was
  | accept p risk =>
    refine later.after ?_
    cases risk with
    | none => cases h; simp [spends]
    | some found => cases h; split <;> simp [stop, spends]
  | arguments args =>
    refine later.after ?_
    cases args with
    | nil => cases h; exact List.forall_mem_nil _
    | cons arg args =>
      cases h
      exact List.forall_mem_append.mpr ⟨saves_argument s arg, by simp [spends]⟩
  | calling function texts args =>
    refine later.after ?_
    cases args with
    | nil => cases h; simp [spends]
    | cons arg args =>
      cases h
      exact List.forall_mem_append.mpr ⟨saves_argument s arg, by simp [spends]⟩
  | action depth a => cases h; exact guarded_action s depth a (paused rfl) later
  | actions depth as =>
    cases as with
    | nil => cases h; exact later
    | cons a as =>
      -- the action may leave the run over, and the next thing after it is the checkpoint of the rest
      cases h
      have rest : Guarded (.actions depth as :: us) := ⟨fun _ => paused rfl, later⟩
      have first : Guarded (.action depth a :: .actions depth as :: us) := ⟨fun _ => .inr ⟨rfl, paused rfl⟩, rest⟩
      exact ((first.cons rfl).cons rfl).cons rfl
  -- a screen brings a checkpoint of its own, which stands behind all that is done there
  | present p name => cases h; exact (entering_paused quiet_shown later).2
  | handle p name called => cases h; exact (entering_paused (fun _ => quiet_handler _ _ _) later).2
  | move => cases h
  -- all else may leave the run over, but has quiet parts, which come before the checkpoint that follows it
  | missing | seed | rounds | measure | visit | branch | walk =>
    exact later.before (quiet_parts h rfl rfl (by rintro _ _ ⟨⟩)) (paused rfl)

/-- They keep the run paused, if it is. -/
theorem paused_parts {s : RunState} (h : t.parts? s = some ts) (guarded : Guarded (t :: us))
    (paused : Paused (t :: us)) : Paused (ts ++ us) := by
  obtain ⟨-, later⟩ := guarded
  cases t with
  | accept p risk =>
    rcases paused with ⟨⟨⟩⟩ | ⟨-, paused⟩
    refine paused.before ?_
    cases risk with
    | none => cases h; simp [starts]
    | some found => cases h; split <;> simp [stop, starts, Halt.plain, RunError.status]
  | arguments args =>
    rcases paused with ⟨⟨⟩⟩ | ⟨-, paused⟩
    refine paused.before ?_
    cases args with
    | nil => cases h; exact List.forall_mem_nil _
    | cons arg args =>
      cases h
      exact List.forall_mem_append.mpr ⟨quiet_argument s arg, by simp [starts]⟩
  | actions depth as =>
    rcases paused with ⟨⟨⟩⟩ | ⟨-, paused⟩
    cases as with
    | nil => cases h; exact paused
    | cons a as => cases h; exact .inl rfl
  | present p name => cases h; exact (entering_paused quiet_shown later).1
  | handle p name called => cases h; exact (entering_paused (fun _ => quiet_handler _ _ _) later).1
  | move => cases h
  | missing | seed | rounds | measure | visit | branch | walk =>
    rcases paused with ⟨⟨⟩⟩ | ⟨-, paused⟩
    exact paused.before (quiet_parts h rfl rfl (by rintro _ _ ⟨⟩))
  | calling | action => rcases paused with ⟨⟨⟩⟩ | ⟨⟨⟩, -⟩

end Task

/-! ## Moves -/

namespace Move

/-- A move that starts nothing traces no action. -/
theorem idles {m : Move} (quiet : (Task.move m).starts = false) (s : RunState) : s.Idles (m.effect s) := by
  cases m with
  | log kind detail => exact (RunState.Adds.refl s).log (by simpa [Task.starts] using quiet) detail
  | status entered => exact ((RunState.Adds.refl s).engine _).log (by decide) _
  | record target => cases quiet
  | check | vet | depth | track | pause | express | write | stop => exact .of_eq rfl rfl

/-- A move that spends nothing leaves the store as it is. -/
theorem spares {m : Move} (saves : (Task.move m).spends = false) (s : RunState) :
    (m.effect s).store = s.store := by
  cases m with
  | log kind detail =>
    obtain ⟨events, eq, -⟩ := s.log_eq kind detail
    rw [effect, eq]
  | status entered =>
    obtain ⟨events, eq⟩ := s.setStatus_eq entered
    rw [effect, eq]
  | track | write => cases saves
  | check | vet | depth | pause | express | record | stop => rfl

theorem paused_of_cancelled {s : RunState} (h : s.engine.inquire.cancelled = true) :
    paused s = .error (.error .cancelled) :=
  if_pos h

/-- A move that spends nothing learns of no wish for the end, or it stops the run. -/
theorem cancelled_of_saves {m : Move} (saves : (Task.move m).spends = false) {s : RunState}
    (made : m.verdict s = .ok ()) : (m.effect s).engine.cancelled = s.engine.cancelled := by
  cases m with
  | log kind detail =>
    obtain ⟨events, eq, -⟩ := s.log_eq kind detail
    rw [effect, eq]
  | status entered =>
    obtain ⟨events, eq⟩ := s.setStatus_eq entered
    rw [effect, eq]
  | pause =>
    -- a checkpoint at which the end has been asked for is not passed
    show s.engine.inquire.cancelled = s.engine.cancelled
    cases hc : s.engine.inquire.cancelled with
    | true =>
      rw [verdict, paused_of_cancelled hc] at made
      cases made
    | false => exact (Bool.or_eq_false_iff.mp hc).1.symm
  | track | write => cases saves
  | check | vet | depth | express | record | stop => rfl

theorem calm {s : RunState} (h : s.Calm) (m : Move) : (m.effect s).Calm := by
  by_cases saves : (Task.move m).spends = false
  · rw [RunState.Calm, spares saves s]
    exact h
  · cases m with
    | track amount => exact h
    | write name value => exact fun l hl => h l (Store.set_listeners _ _ _ _ hl)
    | status | log | check | vet | depth | pause | express | record | stop => exact absurd rfl saves

/-- A run that is over stays so. -/
theorem stays_over {s : RunState} (calm : s.Calm) (h : s.Over) (m : Move) : (m.effect s).Over := by
  have lasts := m.lasts s
  have memory : s.store.memory ≤ (m.effect s).store.memory := by
    by_cases saves : (Task.move m).spends = false
    · exact Int.le_of_eq (congrArg Store.memory (spares saves s).symm)
    · cases m with
      | track amount => exact Int.le_add_of_nonneg_right (Int.natCast_nonneg amount)
      | write name value => exact Store.memory_le_set calm _ _ _
      | status | log | check | vet | depth | pause | express | record | stop => exact absurd rfl saves
  refine h.imp lasts.cancelled fun spent => ?_
  rw [lasts.options, lasts.baseline]
  omega

/-- Only a move that spends leaves a run over that was not so before. -/
theorem over_of_saves {m : Move} (saves : (Task.move m).spends = false) {s : RunState}
    (made : m.verdict s = .ok ()) (h : (m.effect s).Over) : s.Over := by
  have lasts := m.lasts s
  rwa [RunState.Over, spares saves s, cancelled_of_saves saves made, lasts.options, lasts.baseline] at h

/-- A run whose end has been asked for is still cancelled when it turns to its surroundings. -/
theorem inquire_cancelled {engine : Engine} (h : engine.cancelled = true) : engine.inquire.cancelled = true := by
  rw [Engine.inquire, h, Bool.true_or]

/-- A run that is over stops at a checkpoint. -/
theorem paused_of_over {s : RunState} (h : s.Over) : ∃ halt, paused s = .error halt := by
  unfold paused
  split
  · exact ⟨_, rfl⟩
  · next running =>
    split
    · exact ⟨_, rfl⟩
    · have used := h.resolve_left fun cancelled => running (inquire_cancelled cancelled)
      rw [if_pos used]
      unfold spent
      split <;> exact ⟨_, rfl⟩

/-- A run that is over stops with a task that pauses. -/
theorem stops_of_over {m : Move} (pauses : (Task.move m).pauses = true) {s : RunState} (h : s.Over) :
    m.verdict s ≠ .ok () := by
  cases m with
  | pause =>
    obtain ⟨halt, stopped⟩ := paused_of_over h
    rw [verdict, stopped]
    rintro ⟨⟩
  | stop halt => rintro ⟨⟩
  | status | log | check | vet | depth | track | express | record | write => cases pauses

/-- What stops a run outside of a checkpoint. -/
theorem plain_of_stopped {m : Move} (h : (Task.move m).pauses = true ∨ (Task.move m).starts = false)
    {s : RunState} {halt : Halt} (stopped : m.verdict s = .error halt) : m = .pause ∨ halt.plain = true := by
  have settled {outcome : Except Violation Unit} (hs : settled outcome = .error halt) : halt.plain = true := by
    rcases outcome with violation | ⟨⟩ <;> cases hs
    rfl
  -- only a checkpoint stops for the end asked for, the time or the memory
  cases m with
  | pause => exact .inl rfl
  | status | log | track | record => cases stopped
  | check checks => exact .inr (settled stopped)
  | vet screen => exact .inr (settled stopped)
  | depth entity nested =>
    rw [verdict] at stopped
    split at stopped <;> cases stopped
    exact .inr rfl
  | express shortage =>
    rw [verdict] at stopped
    unfold required at stopped
    split at stopped <;> cases stopped
    exact .inr rfl
  | write name value =>
    rw [verdict] at stopped
    split at stopped
    · cases stopped
    · next e failed =>
      cases stopped
      rcases Store.set_error failed with ⟨violation, -, rfl⟩ | ⟨l, -, other, -, rfl⟩ <;> exact .inr rfl
  | stop reason =>
    cases stopped
    exact .inr (h.elim id fun quiet => by simpa [Task.starts] using quiet)

end Move

/-! ## Moments -/

/-- A moment at which no listener clears the store, the run pauses after whatever may leave it over, and
before any action if it is over. -/
structure Moment.Watched (m : Moment) : Prop where
  calm : m.state.Calm
  guarded : Task.Guarded m.left
  paused : m.state.Over → Task.Paused m.left

namespace Moment

variable {m n : Moment}

theorem Watched.next (h : m.Watched) (next : Next m n) : n.Watched := by
  cases next with
  | opened hp =>
    exact ⟨h.calm, Task.guarded_parts hp h.guarded, fun late =>
      Task.paused_parts hp h.guarded (h.paused late)⟩
  | @made move left s hv =>
    obtain ⟨calm, ⟨after, guarded⟩, paused⟩ := h
    refine ⟨Move.calm calm move, guarded, fun late => ?_⟩
    by_cases before : s.Over
    · -- a move that is made in a run that is over is no checkpoint, so what is left was paused before
      rcases paused before with pauses | ⟨-, later⟩
      · exact absurd hv (Move.stops_of_over pauses before)
      · exact later
    · -- the move has left the run over, so it spends, and the run pauses after it
      refine after ?_
      by_contra spends
      exact before (Move.over_of_saves (eq_false_of_ne_true spends) hv late)

/-- Once a run is over, it stays so, and the next moment traces no action. -/
theorem Watched.idles (h : m.Watched) (late : m.state.Over) (next : Next m n) :
    n.state.Over ∧ m.state.Idles n.state := by
  cases next with
  | opened => exact ⟨late, .refl _⟩
  | @made move left s hv =>
    refine ⟨Move.stays_over h.calm late move, ?_⟩
    rcases h.paused late with pauses | ⟨quiet, -⟩
    · exact absurd hv (Move.stops_of_over pauses late)
    · exact Move.idles quiet s

theorem Watched.reaches (h : m.Watched) (reached : m.Reaches n) : n.Watched :=
  reached.keeps (fun _ _ next hm => hm.next next) h

theorem Watched.idles_reaches (h : m.Watched) (late : m.state.Over) (reached : m.Reaches n) :
    n.state.Over ∧ m.state.Idles n.state := by
  induction reached with
  | refl => exact ⟨late, .refl _⟩
  | tail before next ih =>
    obtain ⟨stays, adds⟩ := (h.reaches before).idles ih.1 next
    exact ⟨stays, ih.2.trans adds⟩

/-- A run that is over ends with an error, at a checkpoint or for another reason, and traces no action. -/
theorem Watched.ends (h : m.Watched) (late : m.state.Over) (ends : m.Ends) :
    ∃ halt, m.outcome.1 = .error halt ∧ m.state.Idles m.outcome.2 ∧
      (halt.plain = true ∨ Move.paused m.state = .error halt) := by
  cases ends with
  | done => exact (h.paused late).elim
  | @stopped move halt left s hv =>
    have front := (h.paused late).imp_right And.left
    rw [outcome_stopped hv]
    refine ⟨halt, rfl, ?_, ?_⟩
    · rcases front with pauses | quiet
      · cases move with
        | pause | stop => exact .of_eq rfl rfl
        | status | log | check | vet | depth | track | express | record | write => cases pauses
      · exact Move.idles quiet s
    · rcases Move.plain_of_stopped front hv with rfl | plain
      · exact .inr hv
      · exact .inl plain

end Moment

/-! ## Whole runs -/

theorem RunError.status_ne_completed (e : RunError) : e.status ≠ .completed := by
  cases e <;> exact nofun

/-- A run that is over comes to a result that tells of an error, and of no action that was not traced before. If
its end has been asked for, it is the error of a cancellation or of no checkpoint. -/
theorem Moment.Watched.finish {m : Moment} (h : m.Watched) (late : m.state.Over) (ends : m.Ends)
    {error : Option RunError} (outcome : m.outcome.1 = RunRequest.ended error) :
    let r := (m.outcome.2.finish error).1
    r.status ≠ .completed ∧ m.state.Idles (m.outcome.2.finish error).2 ∧
      (m.state.engine.cancelled = true → r.status = .cancelled ∨ r.status = .failed) := by
  obtain ⟨halt, stopped, idles, why⟩ := h.ends late ends
  rw [stopped] at outcome
  cases error with
  | none => cases outcome
  | some e =>
    cases outcome
    refine ⟨e.status_ne_completed, idles.trans ((RunState.finish_adds _ _).mono ?_), fun cancelled => ?_⟩
    · intro kind closing
      cases kind <;> revert closing <;> decide
    · rcases why with plain | paused
      · exact .inr (of_decide_eq_true plain)
      · rw [Move.paused_of_cancelled (Move.inquire_cancelled cancelled)] at paused
        cases paused
        exact .inl rfl

namespace Engine

/-- An engine that has no listener that clears its store. -/
def Calm (engine : Engine) : Prop :=
  ∀ store, engine.shared = some store → ∀ l ∈ store.listeners, l.reaction ≠ .clear

/-- A run of a calm engine is watched from its first moment on. -/
theorem Calm.first {engine : Engine} (calm : engine.Calm) (p : Program) (q : RunRequest) {store : Store}
    (h : engine.storeForRun = .ok store) : (q.first engine p store).Watched := by
  refine ⟨?_, ?_, fun _ => ?_⟩
  · rcases storeForRun_eq_ok h with shared | ⟨capacity, rfl⟩
    · exact calm store shared
    · exact List.forall_mem_nil _
  · cases q <;> exact ⟨nofun, nofun, fun _ => .inr ⟨rfl, .inl rfl⟩, nofun, nofun, trivial⟩
  · cases q <;> exact .inr ⟨rfl, .inr ⟨rfl, .inr ⟨rfl, .inr ⟨rfl, .inl rfl⟩⟩⟩⟩

/-- No wish for the end is lost: a run is over after a checkpoint or a write at which its end is asked for. -/
theorem over_of_cancels {s : RunState} (asked : s.engine.around.cancels s.engine.contacts = true) {move : Move}
    (turns : move = .pause ∨ ∃ name value, move = .write name value) : (move.effect s).Over := by
  have heard : s.engine.inquire.cancelled = true := by rw [Engine.inquire, asked, Bool.or_true]
  rcases turns with rfl | ⟨name, value, rfl⟩
  · exact .inl heard
  · refine .inl ?_
    show (s.engine.afterWrite _).cancelled = true
    unfold Engine.afterWrite
    rw [heard, Bool.true_or]
    split <;> rfl

/-- No action starts once a run is over. Whatever a calm engine is asked for, from the first moment at which the
end of the run has been asked for, or its memory is used up, up to the result, no action is traced and no
navigation recorded, and the result is no success. The end is asked for at a checkpoint or at a write if the
surroundings want it so. If it has been asked for before the run, there is no navigation at all, and the run is
cancelled or has failed. -/
theorem idle_once_over {engine : Engine} (calm : engine.Calm) (p : Program) (q : RunRequest) {r : RunResult}
    (h : (q.step engine p).result = .ok r) :
    ∃ store, engine.storeForRun = .ok store ∧
      (∃ last, (q.first engine p store).Reaches last ∧ last.Ends ∧ r = (last.outcome.2.finish r.error).1) ∧
      (∀ m, (q.first engine p store).Reaches m → m.state.Over →
        r.status ≠ .completed ∧ r.navigations = m.state.navigations ∧
          ∃ later, r.events = m.state.events ++ later ∧ ∀ event ∈ later, event.kind ∉ actionKinds) ∧
      (∀ move left s, (q.first engine p store).Reaches ⟨.move move :: left, s⟩ →
        (move = .pause ∨ ∃ name value, move = .write name value) →
        engine.around.cancels s.engine.contacts = true → (move.effect s).Over) ∧
      (engine.cancelled = true → r.navigations = [] ∧ (r.status = .cancelled ∨ r.status = .failed)) := by
  obtain ⟨store, hs, -⟩ := perform_ok (RunRequest.step_eq_perform engine p q ▸ h)
  have watched := calm.first p q hs
  -- every moment on the way leads to the last one, which the result tells of
  have told {m : Moment} (hm : (q.first engine p store).Reaches m) :
      ∃ last, m.Reaches last ∧ last.Ends ∧
        ∃ error, last.outcome.1 = RunRequest.ended error ∧ r = (last.outcome.2.finish error).1 := by
    obtain ⟨last, reached, ends⟩ := m.exists_ends
    refine ⟨last, reached, ends, ?_⟩
    rcases RunRequest.step_of_reaches hs (hm.trans reached) with ⟨error, outcome, step⟩ | ⟨b, -, step⟩ <;>
      rw [step] at h <;> cases h
    exact ⟨error, outcome, rfl⟩
  -- idleness is kept up to the last moment, and the end of the run adds no action either
  refine ⟨store, hs, ?_, fun m hm late => ?_, fun move left s hm turns asked => ?_, fun cancelled => ?_⟩
  · obtain ⟨last, reached, ends, error, -, rfl⟩ := told .refl
    exact ⟨last, reached, ends, rfl⟩
  · obtain ⟨last, reached, ends, error, outcome, rfl⟩ := told hm
    obtain ⟨stays, idles⟩ := (watched.reaches hm).idles_reaches late reached
    obtain ⟨failed, later, -⟩ := (watched.reaches (hm.trans reached)).finish stays ends outcome
    exact ⟨failed, (idles.trans later).navigations, (idles.trans later).events⟩
  · have around : s.engine.around = engine.around := hm.lasts.around
    exact over_of_cancels (around ▸ asked) turns
  · obtain ⟨last, reached, ends, error, outcome, rfl⟩ := told .refl
    obtain ⟨stays, idles⟩ := watched.idles_reaches (.inl cancelled) reached
    obtain ⟨-, later, why⟩ := (watched.reaches reached).finish stays ends outcome
    exact ⟨(idles.trans later).navigations, why (reached.lasts.cancelled cancelled)⟩

/-- A program whose only button leads to one screen, counts, and leads to another one. -/
def parting : Program :=
  ⟨"parting", "H",
    [⟨"H", [], [],
      .button "go" (some ⟨"K", []⟩) none [.navigate ⟨"J", []⟩, .update "count" (.literal (.int 1)) "1"],
      []⟩],
    [⟨"count", .int 0⟩], [], []⟩

/-- An engine that is asked to end its run when the count is written for the second time, the seventh time that
it turns to its surroundings. -/
def hasty : Engine := { ofOptions .default with around := { Surroundings.quiet with cancels := (· == 7) } }

/-- The moment of this run right after that write. -/
def overtaken : Moment := ((RunRequest.run none none).first hasty parting (.empty 100)).after 34

/-- The run goes on to the first screen and counts, but not to the second screen. -/
theorem idle_parting :
    hasty.cancelled = false ∧
      ∃ r, ((RunRequest.run none none).step hasty parting).result = .ok r ∧ r.history.length = 2 ∧
        r.status ≠ .completed ∧ r.navigations = ["J"] := by
  have counted : ((RunRequest.run none none).step hasty parting).result.toOption.any
      (fun r => r.history.length == 2) = true := by
    decide +kernel
  obtain ⟨r, h, counted⟩ := EngineStep.exists_result counted
  have calm : hasty.Calm := nofun
  obtain ⟨store, hs, -, idle, -, -⟩ := idle_once_over calm parting (.run none none) h
  cases hs
  have late : overtaken.state.engine.cancelled = true ∧ overtaken.state.navigations = ["J"] := by
    decide +kernel
  obtain ⟨failed, navigations, -⟩ := idle overtaken (Moment.reaches_after 34 _) (.inl late.1)
  exact ⟨rfl, r, h, beq_iff_eq.mp counted, failed, navigations.trans late.2⟩

end Engine

end Screenplay
