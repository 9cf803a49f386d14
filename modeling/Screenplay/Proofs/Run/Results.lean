/-
The result of a run against the state in which the run ends. The variables, changes and navigations of a
result are those of the last state, and its events are those of the last state with a few more that only
tell of the end. So what holds of the last state of a run can be read off its result.
-/
import Screenplay.Proofs.Run.Safe

namespace Screenplay

/-- The kinds of events that are traced when a run has ended. -/
def closingKinds : List EventKind := [.securityWarning, .error, .statusChanged]

namespace RunState

/-! ## Closing events -/

/-- A state that tells what another one does, with some closing events more. -/
structure Closes (s last : RunState) : Prop where
  store : s.store = last.store
  navigations : s.navigations = last.navigations
  heard : s.heard = last.heard
  events : ∀ event ∈ s.events, event ∈ last.events ∨ event.kind ∈ closingKinds

namespace Closes

variable {s last : RunState}

theorem refl (s : RunState) : s.Closes s := ⟨rfl, rfl, rfl, fun _ h => .inl h⟩

theorem log (h : s.Closes last) {kind : EventKind} (hk : kind ∈ closingKinds) (detail : String) :
    (s.log kind detail).Closes last := by
  obtain ⟨events, eq, traced⟩ := s.log_eq kind detail
  rw [eq]
  refine ⟨h.store, h.navigations, h.heard, ?_⟩
  rintro event hm
  rcases traced event hm with hm | rfl
  · exact h.events event hm
  · exact .inr hk

/-- The engine is no part of what a state tells. -/
theorem engine (h : s.Closes last) (engine : Engine) : { s with engine }.Closes last :=
  ⟨h.store, h.navigations, h.heard, h.events⟩

theorem logHits (h : s.Closes last) : s.logHits.Closes last := by
  have logged : ∀ (hits : List Hit) (s : RunState), s.Closes last →
      (hits.foldl (fun s hit => s.log .securityWarning hit.text) s).Closes last := by
    intro hits
    induction hits with
    | nil => exact fun _ h => h
    | cons hit hits ih => exact fun s h => ih _ (h.log (by decide) _)
  exact (logged s.engine.guard.hits s h).engine _

theorem logError (h : s.Closes last) (error : Option RunError) : (s.logError error).Closes last := by
  cases error with
  | none => exact h
  | some e => exact h.log (by decide) _

theorem setStatus (h : s.Closes last) (status : RunStatus) : (s.setStatus status).Closes last :=
  (h.engine _).log (by decide) _

end Closes

/-- The state that a run leaves behind when it has been counted. -/
theorem finish_closes (s : RunState) (error : Option RunError) : (s.finish error).2.Closes s :=
  (((Closes.refl s).logHits.logError error).setStatus _).engine _

/-! ## Traces -/

/-- A state that has the navigations and the events of another one, with some events of certain kinds more. -/
structure Adds (kinds : EventKind → Prop) (s t : RunState) : Prop where
  navigations : t.navigations = s.navigations
  events : ∃ later, t.events = s.events ++ later ∧ ∀ event ∈ later, kinds event.kind

namespace Adds

variable {kinds : EventKind → Prop} {s t u : RunState}

theorem of_eq (navigations : t.navigations = s.navigations) (events : t.events = s.events) : Adds kinds s t :=
  ⟨navigations, [], by rw [events, List.append_nil], List.forall_mem_nil _⟩

theorem refl (s : RunState) : Adds kinds s s := of_eq rfl rfl

theorem trans (h : Adds kinds s t) (g : Adds kinds t u) : Adds kinds s u := by
  obtain ⟨later, eq, hk⟩ := h.events
  obtain ⟨last, eq', hk'⟩ := g.events
  refine ⟨g.navigations.trans h.navigations, later ++ last, ?_, fun event hm => ?_⟩
  · rw [eq', eq, List.append_assoc]
  · exact (List.mem_append.mp hm).elim (hk event) (hk' event)

theorem mono {kinds' : EventKind → Prop} (h : Adds kinds s t) (le : ∀ kind, kinds kind → kinds' kind) :
    Adds kinds' s t :=
  ⟨h.navigations, h.events.imp fun _ ⟨eq, hk⟩ => ⟨eq, fun event hm => le _ (hk event hm)⟩⟩

theorem log (h : Adds kinds s t) {kind : EventKind} (hk : kinds kind) (detail : String) :
    Adds kinds s (t.log kind detail) := by
  unfold RunState.log
  split
  · exact h
  · refine h.trans ⟨rfl, [⟨kind, detail⟩], rfl, fun event hm => ?_⟩
    rw [List.mem_singleton.mp hm]
    exact hk

/-- The engine is no part of what is traced. -/
theorem engine (h : Adds kinds s t) (engine : Engine) : Adds kinds s { t with engine } :=
  ⟨h.navigations, h.events⟩

end Adds

/-- The end of a run adds closing events to the trace. -/
theorem finish_adds (s : RunState) (error : Option RunError) :
    Adds (· ∈ closingKinds) s (s.finish error).2 := by
  have logged : ∀ (hits : List Hit) (t : RunState), Adds (· ∈ closingKinds) s t →
      Adds (· ∈ closingKinds) s (hits.foldl (fun s hit => s.log .securityWarning hit.text) t) := by
    intro hits
    induction hits with
    | nil => exact fun _ h => h
    | cons hit hits ih => exact fun t h => ih _ (h.log (by decide) _)
  have hits : Adds (· ∈ closingKinds) s s.logHits := (logged s.engine.guard.hits s (.refl s)).engine _
  have error : Adds (· ∈ closingKinds) s (s.logHits.logError error) := by
    cases error with
    | none => exact hits
    | some e => exact hits.log (by decide) _
  exact ((error.engine _).log (by decide) _).engine _

end RunState

/-! ## Results -/

/-- A result that tells of the state in which a run has ended. -/
structure RunResult.Tells (r : RunResult) (last : RunState) : Prop where
  values : r.values = last.store.values
  history : r.history = last.store.history
  navigations : r.navigations = last.navigations
  events : ∀ event ∈ r.events, event ∈ last.events ∨ event.kind ∈ closingKinds

theorem RunState.finish_tells (s : RunState) (error : Option RunError) :
    (s.finish error).1.Tells s := by
  have closed := ((Closes.refl s).logHits.logError error).setStatus
    ((error.map RunError.status).getD .completed)
  exact ⟨congrArg Store.values closed.store, congrArg Store.history closed.store, closed.navigations,
    closed.events⟩

namespace Run

/-- A state in which a run starts. -/
def first (engine : Engine) (store : Store) : RunState := ⟨engine, store, store.memory, [], [], []⟩

end Run

/-- A run works on the store that the engine shares, or on an empty one. -/
theorem Engine.storeForRun_eq_ok {engine : Engine} {store : Store}
    (h : engine.storeForRun = .ok store) :
    engine.shared = some store ∨ ∃ capacity, store = .empty capacity := by
  unfold Engine.storeForRun at h
  split at h
  · next shared => cases h; exact .inl shared
  · unfold newStore at h
    split at h
    · cases h
    · split at h
      · cases h
      · cases h; exact .inr ⟨_, rfl⟩

/-- A step of an engine performs a run from a first state: the result and what was heard tell of the
state in which the run ends, and the error of the result is the one that stopped the run. -/
theorem Engine.perform_ok {engine : Engine} {run : Run Unit} {r : RunResult}
    (h : (engine.perform run).result = .ok r) :
    ∃ store, engine.storeForRun = .ok store ∧
      r.Tells (run (Run.first engine store)).2 ∧
      (engine.perform run).heard = (run (Run.first engine store)).2.heard ∧
      ∀ e, r.error = some e → (run (Run.first engine store)).1 = .error (.error e) := by
  unfold Engine.perform at h ⊢
  cases hs : engine.storeForRun with
  | error b => rw [hs] at h; cases h
  | ok store =>
    rw [hs] at h
    refine ⟨store, rfl, ?_⟩
    dsimp only at h ⊢
    unfold RunState.perform at h ⊢
    rw [show (⟨engine, store, store.memory, [], [], []⟩ : RunState) = Run.first engine store from rfl]
      at h ⊢
    rcases hr : run (Run.first engine store) with ⟨(e | b) | ⟨⟩, last⟩
    · rw [hr] at h
      cases h
      refine ⟨last.finish_tells (some e), (last.finish_closes (some e)).heard, ?_⟩
      rintro _ ⟨⟩
      rfl
    · rw [hr] at h
      cases h
    · rw [hr] at h
      cases h
      exact ⟨last.finish_tells none, (last.finish_closes none).heard, nofun⟩

/-- A step about whose result something can be told has one. -/
theorem EngineStep.exists_result {step : EngineStep (Except Breakdown RunResult)} {told : RunResult → Bool}
    (h : step.result.toOption.any told = true) : ∃ r, step.result = .ok r ∧ told r = true := by
  cases hr : step.result with
  | error b => rw [hr] at h; cases h
  | ok r => exact ⟨r, rfl, by rwa [hr] at h⟩

end Screenplay
