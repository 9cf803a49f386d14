/-
What the options of tracing change. A lower bound of events cuts the trace short, without debugging the nodes
that are visited are left out of it, and a lower bound of changes leaves the latest of them. Nothing else of a
result depends on these options: a run with other ones goes through the same moves, apart from those that trace
a node, and no move depends on the trace or on the history.
-/
import Screenplay.Proofs.Run.Mirrors
import Screenplay.Proofs.Store.Log

namespace Screenplay

/-! ## Other options -/

/-- A change of the options that leaves the time and the memory allowed as they are. -/
structure RunOptions.SameBudgets (change : RunOptions → RunOptions) : Prop where
  maxSeconds : ∀ o, (change o).maxSeconds = o.maxSeconds
  maxMemory : ∀ o, (change o).maxMemory = o.maxMemory

namespace Engine

/-- An engine with its options changed. -/
def adjust (engine : Engine) (change : RunOptions → RunOptions) : Engine :=
  { engine with options := change engine.options }

theorem adjust_afterWrite (engine : Engine) (change : RunOptions → RunOptions) (w : Write) :
    (engine.adjust change).afterWrite w = (engine.afterWrite w).adjust change := by
  unfold afterWrite adjust inquire contact
  cases engine.storeGuard <;> rfl

/-- An engine that traces so many events at most. -/
def tracing (engine : Engine) (most : Int) : Engine := engine.adjust ({ · with maxEvents := most })

/-- An engine that traces the nodes that are visited, or not. -/
def debugging (engine : Engine) (debug : Bool) : Engine := engine.adjust ({ · with debug })

/-- An engine that keeps so many changes at most. -/
def keeping (engine : Engine) (most : Int) : Engine := engine.adjust ({ · with maxHistory := most })

end Engine

/-- A state of an engine with its options changed, with another trace. -/
def RunState.adjust (s : RunState) (change : RunOptions → RunOptions) (events : List Event) : RunState :=
  { s with engine := s.engine.adjust change, events }

namespace Move

/-- Other options change nothing but the trace of a move. -/
theorem effect_adjust (m : Move) (s : RunState) (change : RunOptions → RunOptions) (events : List Event) :
    m.effect (s.adjust change events) =
      (m.effect s).adjust change ((s.adjust change events).traceWith m.traced) := by
  have silent (h : m.traced = []) : (s.adjust change events).traceWith m.traced = events := by
    rw [h]
    exact congrArg RunState.events (s.adjust change events).traced_nil
  cases m with
  | log kind detail =>
    rw [effect_log, effect_log]
    rfl
  | status entered =>
    rw [effect_status, effect_status]
    rfl
  | write name value =>
    rw [silent rfl]
    unfold effect RunState.adjust
    dsimp only
    rw [Engine.adjust_afterWrite]
    rfl
  | check | vet | depth | track | pause | express | record | stop =>
    rw [silent rfl]
    rfl

theorem verdict_adjust (m : Move) (s : RunState) {change : RunOptions → RunOptions}
    (same : RunOptions.SameBudgets change) (events : List Event) :
    m.verdict (s.adjust change events) = m.verdict s := by
  cases m with
  | pause =>
    unfold verdict paused RunState.adjust Engine.adjust Engine.inquire Engine.contact
    dsimp only
    rw [same.maxSeconds, same.maxMemory]
  | status | log | check | vet | depth | track | express | record | write | stop => rfl

end Move

/-! ## Fewer events -/

namespace RunState

/-- A state with a lower bound of events. -/
def cut (most : Int) (s : RunState) : RunState :=
  s.adjust ({ · with maxEvents := most }) (s.events.take most.toNat)

/-- What is traced beyond the bound is cut off. -/
theorem cut_traceWith {most : Int} {s : RunState} (h : most ≤ s.engine.options.maxEvents) (more : List Event) :
    (s.cut most).traceWith more = (s.traceWith more).take most.toNat := by
  have room : most.toNat - s.events.length ≤ s.engine.options.maxEvents.toNat - s.events.length := by omega
  have taken : most.toNat - min most.toNat s.events.length = most.toNat - s.events.length := by omega
  simp only [traceWith, cut, adjust, Engine.adjust, List.take_append, List.length_take, List.take_take, taken,
    Nat.min_eq_left room]

/-- A state with a lower bound of events than another one, and the same apart from that. -/
structure Cut (most : Int) (s t : RunState) : Prop where
  lower : most ≤ s.engine.options.maxEvents
  state : t = s.cut most

/-- A run with a lower bound of events goes through the same moves. -/
theorem mirrors_cut (most : Int) : Mirrors (fun _ => false) (fun _ => False) (Cut most) := by
  refine .of_same_parts ?_ ?_
  · rintro s _ ⟨-, rfl⟩ task
    exact Task.parts_congr ⟨rfl, rfl, rfl⟩ rfl task
  · rintro s _ ⟨lower, rfl⟩ move
    refine .inr ⟨?_, ?_, ?_⟩
    · exact move.verdict_adjust s ⟨fun _ => rfl, fun _ => rfl⟩ _
    · rwa [(move.lasts s).options]
    · rw [cut, move.effect_adjust, cut, move.effect_events, ← cut_traceWith lower]
      rfl

theorem Cut.finish {most : Int} {s t : RunState} (h : Cut most s t) (error : Option RunError) :
    (t.finish error).1 =
      { (s.finish error).1 with events := (s.finish error).1.events.take most.toNat } := by
  obtain ⟨lower, rfl⟩ := h
  rw [finish_eq, finish_eq]
  dsimp only
  rw [← cut_traceWith lower]
  rfl

end RunState

/-! ## Nodes that are not traced -/

/-- Whether an event tells of a node that is visited. -/
def Event.renders (event : Event) : Bool := event.kind = .uiRendered

theorem Task.eq_log_of_renders {t : Task} (h : t.renders = true) :
    ∃ detail, t = .move (.log .uiRendered detail) := by
  have traced := of_decide_eq_true h
  unfold Task.traces? at traced
  split at traced
  · cases traced
    exact ⟨_, rfl⟩
  · cases traced

namespace Move

/-- A move that does not trace a node traces no event that tells of one. -/
theorem filter_traced {m : Move} (h : (Task.move m).renders = false) :
    m.traced.filter (!·.renders) = m.traced := by
  refine List.filter_eq_self.mpr fun event he => ?_
  cases m with
  | status entered => rw [List.mem_singleton.mp he]; rfl
  | log kind detail =>
    have other : kind ≠ .uiRendered := fun same => by
      rw [same] at h
      cases h
    rw [List.mem_singleton.mp he]
    simp [Event.renders, other]
  | check | vet | depth | track | pause | express | record | write | stop => cases he

end Move

namespace RunState

/-- A state in which nodes are not traced, and the same as another one apart from that: unless the room in the
trace is filled, the trace has all the other events. -/
structure Mutes (most : Int) (s t : RunState) : Prop where
  bound : s.engine.options.maxEvents = most
  state : t = s.adjust ({ · with debug := false }) t.events
  events : s.events.length < most.toNat → t.events = s.events.filter (!·.renders)

namespace Mutes

variable {most : Int} {s t : RunState}

/-- As long as the room is not filled by what both trace, both traces go on. -/
theorem traceWith (h : Mutes most s t) (more : List Event) (room : (s.traceWith more).length < most.toNat) :
    t.traceWith more = s.events.filter (!·.renders) ++ more := by
  obtain ⟨rfl, state, events⟩ := h
  have all := room_of_traceWith room
  have fewer := s.events.length_filter_le (!·.renders)
  have told : t.events = s.events.filter (!·.renders) := events (by omega)
  have same : t.engine.options.maxEvents = s.engine.options.maxEvents := by rw [state]; rfl
  rw [traceWith_of_room (by rw [told, same]; omega), told]

theorem effect (h : Mutes most s t) {move : Move} (kept : (Task.move move).renders = false) :
    Mutes most (move.effect s) (move.effect t) := by
  have traced := h.traceWith move.traced
  obtain ⟨rfl, state, -⟩ := h
  refine ⟨by rw [(move.lasts s).options], ?_, fun room => ?_⟩
  · rw [move.effect_events, state]
    exact move.effect_adjust s _ _
  · rw [move.effect_events] at room
    rw [move.effect_events, traced room, move.effect_events, traceWith_of_room (room_of_traceWith room).le,
      List.filter_append, Move.filter_traced kept]

/-- An event that tells of a node is missing from the second trace. -/
theorem skip (h : Mutes most s t) (detail : String) : Mutes most (s.log .uiRendered detail) t := by
  obtain ⟨rfl, state, events⟩ := h
  rw [log_eq_traced]
  refine ⟨rfl, state, fun room => ?_⟩
  -- with room after this event there was room before it
  have all := room_of_traceWith room
  rw [events (by omega)]
  show _ = List.filter _ (s.traceWith _)
  rw [traceWith_of_room all.le, List.filter_append]
  exact (List.append_nil _).symm

theorem finish (h : Mutes most s t) (error : Option RunError)
    (room : (s.finish error).1.events.length < most.toNat) :
    (t.finish error).1 =
      { (s.finish error).1 with events := (s.finish error).1.events.filter (!·.renders) } := by
  have traced := h.traceWith (s.closingEvents error)
  obtain ⟨rfl, state, -⟩ := h
  rw [finish_eq] at room
  have closing : (s.closingEvents error).filter (!·.renders) = s.closingEvents error := by
    cases error <;> simp [closingEvents, Event.renders]
  have same : t.closingEvents error = s.closingEvents error := by rw [state]; rfl
  rw [finish_eq, finish_eq]
  dsimp only
  rw [same, traced room, traceWith_of_room (room_of_traceWith room).le, List.filter_append, closing, state]
  rfl

end Mutes

/-- A run in which nodes are not traced goes through the same moves, apart from those that trace them. -/
theorem mirrors_mutes (most : Int) : Mirrors Task.renders (fun _ => False) (Mutes most) where
  parts := by
    rintro s t h task
    have same : t.Resembles s.quiet := by rw [h.state]; exact ⟨rfl, rfl, rfl⟩
    rw [Task.parts_congr same (by rw [h.state]; rfl), Task.parts_quiet]
  skipped := by
    rintro s t h task renders
    obtain ⟨detail, rfl⟩ := Task.eq_log_of_renders renders
    exact ⟨_, rfl, rfl, h.skip detail⟩
  made := by
    rintro s t h move kept
    refine .inr ⟨?_, h.effect kept⟩
    rw [h.state]
    exact move.verdict_adjust s ⟨fun _ => rfl, fun _ => rfl⟩ _

end RunState

/-! ## Fewer changes -/

namespace Store

/-- A store that keeps fewer changes. -/
def retain (most : Nat) (s : Store) : Store := { s with history := s.history.rtake most, capacity := most }

theorem remember_eq (capacity : Nat) (history : List Change) (change : Change) :
    remember capacity history change = (history ++ [change]).rtake capacity := by
  rw [remember, List.rtake, List.length_append, List.length_singleton]

theorem retain_commit {most : Nat} {s : Store} (h : most ≤ s.capacity) (change : Change) :
    (s.retain most).commit change = (s.commit change).retain most := by
  unfold commit retain
  dsimp only
  rw [remember_eq, remember_eq, rtake_rtake_concat, rtake_rtake _ h]

theorem retain_react (most : Nat) (s : Store) (reaction : Reaction) :
    (s.retain most).react reaction = (s.react reaction).map (retain most) := by
  cases reaction with
  | clear =>
    show Except.ok _ = Except.ok _
    rw [clear, clear, retain, retain, List.rtake_nil]
  | record | write | unsubscribe | cancel => rfl

theorem react_capacity {s s' : Store} {reaction : Reaction} (h : s.react reaction = .ok s') :
    s'.capacity = s.capacity := by
  cases reaction <;> cases h <;> rfl

theorem notify_capacity (guard : Guard) (change : Change) (s : Store) (heard : List Delivery)
    (listeners : List Listener) : (notify guard change s heard listeners).store.capacity = s.capacity := by
  induction listeners generalizing s heard with
  | nil => rfl
  | cons l later ih =>
    rw [notify]
    split
    · next hr => exact (ih _ _).trans (react_capacity hr)
    · rfl

theorem set_capacity (s : Store) (guard : Guard) (name : String) (value : Value) :
    (s.set guard name value).store.capacity = s.capacity := by
  unfold set
  rcases guard.check (Check.state name value) with ⟨violation | ⟨⟩, after⟩
  · rfl
  · exact notify_capacity _ _ _ _ _

/-- Listeners hear and do the same where fewer changes are kept. -/
theorem retain_notify (most : Nat) (guard : Guard) (change : Change) (s : Store) (heard : List Delivery)
    (listeners : List Listener) :
    notify guard change (s.retain most) heard listeners =
      { notify guard change s heard listeners with
        store := (notify guard change s heard listeners).store.retain most } := by
  induction listeners generalizing s heard with
  | nil => rfl
  | cons l later ih =>
    rw [notify, notify, retain_react]
    cases s.react l.reaction with
    | ok s' => exact ih s' _
    | error e => rfl

theorem retain_set {most : Nat} {s : Store} (h : most ≤ s.capacity) (guard : Guard) (name : String)
    (value : Value) :
    (s.retain most).set guard name value =
      { s.set guard name value with store := (s.set guard name value).store.retain most } := by
  unfold set
  rcases guard.check (Check.state name value) with ⟨violation | ⟨⟩, after⟩
  · rfl
  · dsimp only
    rw [show (s.retain most).changeTo name value = s.changeTo name value from rfl, retain_commit h]
    exact retain_notify most after _ _ [] s.listeners

end Store

namespace RunState

/-- A state that keeps fewer changes. -/
def retain (most : Int) (s : RunState) : RunState :=
  { s with engine := s.engine.keeping most, store := s.store.retain most.toNat }

/-- A state that keeps fewer changes than another one, and the same apart from that. -/
structure Retains (most : Int) (s t : RunState) : Prop where
  lower : most.toNat ≤ s.store.capacity
  state : t = s.retain most

/-- A run that keeps fewer changes goes through the same moves. -/
theorem mirrors_retains (most : Int) : Mirrors (fun _ => false) (fun _ => False) (Retains most) := by
  refine .of_same_parts ?_ ?_
  · rintro s _ ⟨-, rfl⟩ task
    exact Task.parts_congr ⟨rfl, rfl, rfl⟩ rfl task
  · rintro s _ ⟨lower, rfl⟩ move
    right
    cases move with
    | write name value =>
      have write : (s.retain most).store.set (s.retain most).engine.writeGuard name value =
          { s.store.set s.engine.writeGuard name value with
            store := (s.store.set s.engine.writeGuard name value).store.retain most.toNat } :=
        Store.retain_set lower _ _ _
      refine ⟨?_, ?_, ?_⟩
      · rw [Move.verdict, Move.verdict, write]
      · exact lower.trans_eq (Store.set_capacity _ _ _ _).symm
      · rw [Move.effect, Move.effect, write]
        dsimp only
        rw [retain, retain, Engine.keeping, Engine.adjust_afterWrite]
        rfl
    | log kind detail =>
      rw [Move.effect_log, Move.effect_log]
      exact ⟨rfl, lower, rfl⟩
    | status entered =>
      rw [Move.effect_status, Move.effect_status]
      exact ⟨rfl, lower, rfl⟩
    | check | vet | depth | track | pause | express | record | stop => exact ⟨rfl, lower, rfl⟩

theorem Retains.finish {most : Int} {s t : RunState} (h : Retains most s t) (error : Option RunError) :
    (t.finish error).1 =
      { (s.finish error).1 with history := (s.finish error).1.history.rtake most.toNat } := by
  obtain ⟨-, rfl⟩ := h
  rw [finish_eq, finish_eq]
  rfl

end RunState

/-! ## The length of a trace -/

namespace Moment

/-- The trace is no longer than the moments that have passed. -/
theorem Next.length_events_le {m n : Moment} (h : Next m n) :
    n.state.events.length + Task.spanOf n.left ≤ m.state.events.length + Task.spanOf m.left := by
  cases h with
  | @made move left s hv =>
    have one := move.length_effect_le s
    dsimp only
    rw [Task.spanOf_cons, Task.span_move]
    omega
  | opened hp =>
    have shorter := Task.spanOf_parts hp
    dsimp only
    rw [Task.spanOf_append, Task.spanOf_cons]
    omega

theorem Reaches.length_events_le {m n : Moment} (h : m.Reaches n) :
    n.state.events.length + Task.spanOf n.left ≤ m.state.events.length + Task.spanOf m.left :=
  h.keeps (P := fun n => n.state.events.length + Task.spanOf n.left ≤ m.state.events.length + Task.spanOf m.left)
    (fun _ _ next hm => next.length_events_le.trans hm) (Nat.le_refl _)

theorem Ends.length_events_le {m : Moment} (h : m.Ends) :
    m.outcome.2.events.length ≤ m.state.events.length + Task.spanOf m.left := by
  cases h with
  | done s => exact Nat.le_refl _
  | @stopped move halt left s hv =>
    have one := move.length_effect_le s
    rw [outcome_stopped hv, Task.spanOf_cons, Task.span_move]
    dsimp only
    omega

end Moment

/-- The trace of a result is no longer than the moments that the run takes, with the events that close it. -/
theorem RunRequest.length_events_le {engine : Engine} {p : Program} {q : RunRequest} {r : RunResult}
    (h : (q.step engine p).result = .ok r) : r.events.length ≤ Task.spanOf (q.tasks p) + r.hits.length + 2 := by
  obtain ⟨store, last, error, -, reached, ends, -, rfl, -⟩ := RunRequest.exists_last h
  have traced := ends.length_events_le.trans reached.length_events_le
  have closing : (last.outcome.2.closingEvents error).length ≤ last.outcome.2.engine.guard.hits.length + 2 := by
    cases error <;> simp [RunState.closingEvents]
  have told := last.outcome.2.length_traceWith_le (last.outcome.2.closingEvents error)
  rw [RunState.finish_eq]
  dsimp only [first, Run.first, List.length_nil] at traced ⊢
  omega

/-! ## Results -/

namespace RunRequest

variable (engine : Engine) (p : Program) (q : RunRequest)

theorem tasks_not_render : ∀ t ∈ q.tasks p, t.renders = false := by
  cases q <;> simp [tasks, Task.showing, Task.handling, Task.starting, Task.renders, Task.traces?]

/-- With a lower bound of events the trace is cut short, and the result is the same apart from that. -/
theorem result_tracing {fewer most : Int} (h : fewer ≤ most) :
    (q.step (engine.tracing fewer) p).result =
      (q.step (engine.tracing most) p).result.map fun r => { r with events := r.events.take fewer.toNat } := by
  have related (store : Store) :
      RunState.Cut fewer (Run.first (engine.tracing most) store) (Run.first (engine.tracing fewer) store) := by
    refine ⟨h, ?_⟩
    rw [RunState.cut, show (Run.first (engine.tracing most) store).events = [] from rfl, List.take_nil]
    rfl
  exact (RunState.mirrors_cut fewer).request_map (P := fun _ => True) (fun cut error _ => cut.finish error)
    (fun _ _ => rfl) (fun b hs => hs) (fun store hs => ⟨store, hs, related store⟩) fun _ _ => trivial

/-- A bound of events that cuts nothing off: with a higher one the result is the same. -/
def Roomy (most : Int) : Prop :=
  ∀ more, most ≤ more → (q.step (engine.tracing more) p).result = (q.step (engine.tracing most) p).result

/-- A bound that is not met cuts nothing off. -/
theorem roomy_of_unfilled {most : Int}
    (h : ∀ r, (q.step (engine.tracing most) p).result = .ok r → r.events.length < most) :
    q.Roomy engine p most := by
  intro more le
  have cut := q.result_tracing engine p le
  cases hr : (q.step (engine.tracing more) p).result with
  | error b => rw [cut, hr]; rfl
  | ok r =>
    rw [hr] at cut
    have short := h _ cut
    rw [List.length_take] at short
    rw [cut, Except.map, List.take_of_length_le (by omega)]

/-- Some bound is never met, however high it is set. -/
theorem exists_unfilled : ∃ bound : Int, ∀ most, bound ≤ most →
    ∀ r, (q.step (engine.tracing most) p).result = .ok r → r.events.length < most := by
  -- the hits are those of a run that traces nothing
  cases hr : (q.step (engine.tracing 0) p).result with
  | error b =>
    refine ⟨0, fun most le r hm => ?_⟩
    have cut := q.result_tracing engine p le
    rw [hr, hm] at cut
    cases cut
  | ok r₀ =>
    refine ⟨Task.spanOf (q.tasks p) + r₀.hits.length + 3, fun most le r hm => ?_⟩
    have cut := q.result_tracing engine p (show (0 : Int) ≤ most by omega)
    rw [hr, hm] at cut
    cases cut
    have bounded := length_events_le hm
    dsimp only at le
    omega

/-- Without debugging, the events that tell of nodes are missing, if the bound of events is never met. -/
theorem result_quiet {most : Int}
    (h : ∀ r, (q.step ((engine.debugging true).tracing most) p).result = .ok r → r.events.length < most) :
    (q.step ((engine.debugging false).tracing most) p).result =
      (q.step ((engine.debugging true).tracing most) p).result.map
        fun r => { r with events := r.events.filter (!·.renders) } := by
  have related (store : Store) : RunState.Mutes most (Run.first ((engine.debugging true).tracing most) store)
      (Run.first ((engine.debugging false).tracing most) store) := ⟨rfl, rfl, fun _ => rfl⟩
  refine (RunState.mirrors_mutes most).request_map (P := fun r => r.events.length < most.toNat)
    (fun mutes => mutes.finish) (q.tasks_not_render p) (fun b hs => hs)
    (fun store hs => ⟨store, hs, related store⟩) fun r hr => ?_
  have unfilled := h r hr
  omega

/-- Without debugging, the events that tell of nodes are missing, and the result is the same apart from that. -/
theorem result_debugging {most : Int} (h : q.Roomy (engine.debugging true) p most) :
    (q.step ((engine.debugging false).tracing most) p).result =
      (q.step ((engine.debugging true).tracing most) p).result.map
        fun r => { r with events := r.events.filter (!·.renders) } := by
  -- compare the runs under a bound that is never met, then go back to the lower one
  obtain ⟨bound, unfilled⟩ := q.exists_unfilled (engine.debugging true) p
  have above := Int.le_max_left most bound
  have quiet := q.result_quiet engine p (unfilled (max most bound) (Int.le_max_right most bound))
  rw [q.result_tracing (engine.debugging false) p above, quiet, h _ above]
  -- what is cut off was cut off with debugging before
  have cut := q.result_tracing (engine.debugging true) p (Int.le_refl most)
  cases hr : (q.step ((engine.debugging true).tracing most) p).result with
  | error b => rfl
  | ok r =>
    rw [hr] at cut
    injection cut with cut
    have short : r.events.length ≤ most.toNat := by
      rw [cut, List.length_take]
      exact Nat.min_le_left _ _
    have fewer := (r.events.length_filter_le (!·.renders)).trans short
    simp only [Except.map, List.take_of_length_le fewer]

/-- No store of its own keeps so many changes that they cannot be counted. -/
theorem result_keeping_huge (fresh : engine.shared = none) {most : Int} (huge : historyBound ≤ most) :
    (q.step (engine.keeping most) p).result = .error .hugeHistory := by
  have none : (engine.keeping most).storeForRun = .error .hugeHistory := by
    unfold Engine.storeForRun Engine.newStore
    rw [show (engine.keeping most).shared = Option.none from fresh]
    exact if_pos (.inr huge)
  rw [step_eq_perform, Engine.perform, none]

/-- With a lower bound of changes the latest ones are left, and the result is the same apart from that. -/
theorem result_keeping (fresh : engine.shared = none) {fewer most : Int} (positive : 0 ≤ fewer) (h : fewer ≤ most)
    (counted : most < historyBound) :
    (q.step (engine.keeping fewer) p).result =
      (q.step (engine.keeping most) p).result.map fun r => { r with history := r.history.rtake fewer.toNat } := by
  have store {n : Int} (hn : 0 ≤ n) (hb : n < historyBound) :
      (engine.keeping n).storeForRun = .ok (.empty n.toNat) := by
    have bounded : ¬ ((engine.keeping n).options.maxHistory < -historyBound ∨
        historyBound ≤ (engine.keeping n).options.maxHistory) := by
      show ¬ (n < -historyBound ∨ historyBound ≤ n)
      omega
    unfold Engine.storeForRun Engine.newStore
    rw [show (engine.keeping n).shared = none from fresh]
    dsimp only
    rw [if_neg bounded]
    exact if_neg (Int.not_lt.mpr hn)
  -- both runs start from stores without changes, and each step keeps the latest ones the same
  have related : RunState.Retains fewer (Run.first (engine.keeping most) (.empty most.toNat))
      (Run.first (engine.keeping fewer) (.empty fewer.toNat)) := by
    refine ⟨Int.toNat_le_toNat h, ?_⟩
    rw [RunState.retain, Store.retain, show (Run.first (engine.keeping most) (.empty most.toNat)).store.history = []
      from rfl, List.rtake_nil]
    rfl
  have kept := store (Int.le_trans positive h) counted
  refine (RunState.mirrors_retains fewer).request_map (P := fun _ => True) (fun retains error _ => retains.finish error)
    (fun _ _ => rfl) (fun b hs => ?_) (fun _ hs => ?_) fun _ _ => trivial
  · rw [kept] at hs
    cases hs
  · rw [kept] at hs
    cases hs
    exact ⟨_, store positive (Int.lt_of_le_of_lt h counted), related⟩

/-- The options of tracing never change what a run does. With a lower bound of events the result has the first
ones of its events. Without debugging it has those that do not tell of nodes, as long as the bound cuts nothing
off with debugging; some bound does not. With a lower bound of changes it has the latest ones of its changes, if
the run has a store of its own; there is no such run with a bound that is too large for a store. Everything else in
the result is the same. -/
theorem tracing_options_only_trace :
    (∀ fewer most : Int, fewer ≤ most →
      (q.step (engine.tracing fewer) p).result =
        (q.step (engine.tracing most) p).result.map fun r => { r with events := r.events.take fewer.toNat }) ∧
    (∃ bound, q.Roomy (engine.debugging true) p bound) ∧
    (∀ most, q.Roomy (engine.debugging true) p most →
      (q.step ((engine.debugging false).tracing most) p).result =
        (q.step ((engine.debugging true).tracing most) p).result.map
          fun r => { r with events := r.events.filter fun event => event.kind ≠ .uiRendered }) ∧
    (engine.shared = none → ∀ fewer most : Int, 0 ≤ fewer → fewer ≤ most →
      (most < historyBound →
        (q.step (engine.keeping fewer) p).result =
          (q.step (engine.keeping most) p).result.map fun r =>
            { r with history := r.history.rtake fewer.toNat }) ∧
      (historyBound ≤ most → (q.step (engine.keeping most) p).result = .error .hugeHistory)) := by
  obtain ⟨bound, unfilled⟩ := q.exists_unfilled (engine.debugging true) p
  have shown : (fun event : Event => decide (event.kind ≠ .uiRendered)) = (!·.renders) := by
    funext event
    simp [Event.renders]
  refine ⟨fun fewer most => q.result_tracing engine p, ⟨bound, ?_⟩, fun most roomy => ?_,
    fun fresh fewer most positive le =>
      ⟨q.result_keeping engine p fresh positive le, q.result_keeping_huge engine p fresh⟩⟩
  · exact q.roomy_of_unfilled _ p (unfilled bound (Int.le_refl bound))
  · rw [shown]
    exact q.result_debugging engine p roomy

end RunRequest

/-- A program with two variables and a label in a column. -/
def tally : Program :=
  ⟨"tally", "H", [⟨"H", [], [], .container .column [.text .label (.var "count")], []⟩],
    [⟨"count", .int 0⟩, ⟨"title", .text "Home"⟩], [], []⟩

/-- A run of this program with debugging, and the ones with fewer events, without debugging, and with fewer
changes. -/
theorem tracing_tally :
    ∃ r, (((Engine.ofOptions .default).debugging true).run tally none none).result = .ok r ∧
      r.events.length = 7 ∧ r.history.length = 2 ∧
      ((((Engine.ofOptions .default).debugging true).tracing 3).run tally none none).result =
        .ok { r with events := r.events.take 3 } ∧
      ((Engine.ofOptions .default).run tally none none).result =
        .ok { r with events := r.events.filter fun event => event.kind ≠ .uiRendered } ∧
      ((((Engine.ofOptions .default).debugging true).keeping 1).run tally none none).result =
        .ok { r with history := r.history.rtake 1 } := by
  have told : (((Engine.ofOptions .default).debugging true).run tally none none).result.toOption.any
      (fun r => r.events.length == 7 && r.history.length == 2) = true := by
    decide +kernel
  obtain ⟨r, h, told⟩ := EngineStep.exists_result told
  rw [Bool.and_eq_true, beq_iff_eq, beq_iff_eq] at told
  -- the run has less events than the bound, so it cuts nothing
  have roomy : (RunRequest.run none none).Roomy ((Engine.ofOptions .default).debugging true) tally 1000 :=
    RunRequest.roomy_of_unfilled _ _ _ fun r' hr => by
      cases h.symm.trans hr
      omega
  obtain ⟨cut, -, -, retained⟩ := RunRequest.tracing_options_only_trace
    ((Engine.ofOptions .default).debugging true) tally (.run none none)
  obtain ⟨-, -, muted, -⟩ := RunRequest.tracing_options_only_trace (Engine.ofOptions .default) tally
    (.run none none)
  have countable : (100 : Int) < historyBound := by decide +kernel
  refine ⟨r, h, told.1, told.2, ?_, ?_, ?_⟩
  · exact (cut 3 1000 (by decide)).trans (congrArg _ h)
  · exact (muted 1000 roomy).trans (congrArg _ h)
  · exact ((retained rfl 1 100 (by decide) (by decide)).1 countable).trans (congrArg _ h)

end Screenplay
