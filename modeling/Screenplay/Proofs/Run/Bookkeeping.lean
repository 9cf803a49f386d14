/-
The books of an engine. Whatever an engine is used for, as long as its runs come to results, it has counted them
all, each as completed or as failed. After a run its status, its counters and its guard agree with the result: the
hits that the run let through have been told, and the guard has forgotten them.
-/
import Screenplay.Proofs.Run.Mirrors
import Screenplay.Proofs.Run.Returns
import Screenplay.Proofs.Run.Stopping

namespace Screenplay

namespace Engine

/-! ## Uses -/

/-- An engine that has run nothing yet, with the store of all runs and its guard if there are any. -/
def opened (options : RunOptions) (shared : Option Store) (storeGuard : Option Guard) (cancelled : Bool)
    (around : Surroundings) : Engine :=
  { ofOptions options with shared, storeGuard, cancelled, around }

/-- Something that is asked of an engine, or done to the store that its runs share. -/
inductive Use where
  | request (p : Program) (q : RunRequest)
  | cancel
  | uncancel
  /-- a write from outside a run; `held` listens to this write only -/
  | write (name : String) (value : Value) (held : Option Reaction)
  | track (amount : Int)
  | clear
  | subscribe (reaction : Reaction)
  | unsubscribe (key : Nat)

/-- Whether a use asks for a run. -/
def Use.requests : Use → Bool
  | .request .. => true
  | _ => false

theorem Use.eq_request {u : Use} (h : u.requests = true) : ∃ p q, u = .request p q := by
  cases u with
  | request p q => exact ⟨p, q, rfl⟩
  | cancel | uncancel | write | track | clear | subscribe | unsubscribe => cases h

/-- Changes the store that runs share, if they do. -/
def alter (engine : Engine) (change : Store → Store) : Engine := { engine with shared := engine.shared.map change }

/-- An engine after a use. -/
def use (engine : Engine) : Use → Engine
  | .request p q => (q.step engine p).engine
  | .cancel => engine.cancel
  | .uncancel => engine.uncancel
  | .write name value held =>
    match engine.shared with
    | some store => (engine.set store name value held).engine
    | none => engine
  | .track amount => engine.alter (·.track amount)
  | .clear => engine.alter Store.clear
  | .subscribe reaction => engine.alter (·.subscribe reaction)
  | .unsubscribe key => engine.alter (·.unsubscribe key)

/-- An engine after some uses, one after the other. -/
def after (engine : Engine) (uses : List Use) : Engine := uses.foldl use engine

theorem after_concat (engine : Engine) (uses : List Use) (u : Use) :
    engine.after (uses ++ [u]) = (engine.after uses).use u :=
  List.foldl_concat ..

/-- Whether a use comes to a result if it asks for a run. -/
def Use.returns (engine : Engine) : Use → Bool
  | .request p q => (q.step engine p).result.isOk
  | _ => true

/-- Whether every run that some uses ask for comes to a result. -/
def returnsAll (engine : Engine) : List Use → Bool
  | [] => true
  | u :: later => u.returns engine && (engine.use u).returnsAll later

theorem returnsAll_append (engine : Engine) (uses more : List Use) :
    engine.returnsAll (uses ++ more) = (engine.returnsAll uses && (engine.after uses).returnsAll more) := by
  induction uses generalizing engine with
  | nil => rfl
  | cons u later ih => rw [List.cons_append, returnsAll, returnsAll, ih, Bool.and_assoc]; rfl

/-- A run that some uses ask for has a result if all have, and so have those before. -/
theorem returns_at {engine : Engine} {before later : List Use} {p : Program} {q : RunRequest}
    (h : engine.returnsAll (before ++ .request p q :: later) = true) :
    engine.returnsAll before = true ∧ ∃ r, (q.step (engine.after before) p).result = .ok r := by
  rw [returnsAll_append, Bool.and_eq_true, returnsAll, Bool.and_eq_true, Use.returns] at h
  obtain ⟨earlier, now, -⟩ := h
  cases hr : (q.step (engine.after before) p).result with
  | error b => rw [hr] at now; cases now
  | ok r => exact ⟨earlier, r, rfl⟩

/-- A use that asks for no run leaves the counters as they are. -/
theorem use_statistics {u : Use} (h : u.requests = false) (engine : Engine) :
    (engine.use u).statistics = engine.statistics := by
  have written (w : Write) : (engine.afterWrite w).statistics = engine.statistics := by
    unfold afterWrite
    split <;> rfl
  cases u with
  | request => cases h
  | write name value held =>
    rw [use]
    split
    · exact (keep_statistics _ _).trans (written _)
    · rfl
  | cancel | uncancel | track | clear | subscribe | unsubscribe => rfl

end Engine

/-! ## The end of a run -/

/-- The books of an engine after a run: they agree with the result and the store of the run, and the guard has
nothing noted. -/
structure RunResult.Booked (r : RunResult) (store : Store) (after : Engine) : Prop where
  status : after.status = r.status
  lastStatus : after.statistics.lastStatus = r.status
  ended : r.status ∈ endStatuses
  completed : r.success = true ↔ r.status = .completed
  error : r.success = true ↔ r.error = none
  kind : r.success = true ↔ r.error.map RunError.kind = none
  values : r.values = store.values
  history : r.history = store.history
  memory : after.statistics.memory = store.memory
  «variables» : after.statistics.variables = store.values.length
  changes : after.statistics.changes = store.history.length
  shared : ∀ kept, after.shared = some kept → kept = store
  hits : after.guard.hits = []

namespace RunState

theorem endStatus_completed_iff (error : Option RunError) : endStatus error = .completed ↔ error = none := by
  cases error with
  | none => exact ⟨fun _ => rfl, fun _ => rfl⟩
  | some e => exact iff_of_false e.status_ne_completed (Option.some_ne_none e)

/-- The end of a run is booked. -/
theorem finish_booked (s : RunState) (error : Option RunError) :
    (s.finish error).1.Booked s.store ((s.finish error).2.engine.keep (s.finish error).2.store) := by
  have kept (engine : Engine) (store kept : Store) (h : (engine.keep store).shared = some kept) : kept = store := by
    unfold Engine.keep at h
    split at h
    · cases h
      rfl
    · next fresh => rw [fresh] at h; cases h
  have guard (engine : Engine) (store : Store) : (engine.keep store).guard = engine.guard := by
    unfold Engine.keep
    split <;> rfl
  have success : error.isNone = true ↔ error = none := Option.isNone_iff_eq_none
  -- the end is told exactly, so each fact is read off the result and the engine that is kept
  rw [finish_eq]
  refine ⟨?_, ?_, ?_, ?_, ?_, ?_, rfl, rfl, ?_, ?_, ?_, ?_, ?_⟩
  · rw [Engine.keep_status]
  · rw [Engine.keep_statistics]
    rfl
  · exact status_mem_endStatuses error
  · exact success.trans (endStatus_completed_iff error).symm
  · exact success
  · exact success.trans Option.map_eq_none_iff.symm
  · rw [Engine.keep_statistics]
    rfl
  · rw [Engine.keep_statistics]
    rfl
  · rw [Engine.keep_statistics]
    rfl
  · exact kept _ _
  · rw [guard]

end RunState

/-! ## Warnings -/

/-- The parts of a task trace nodes or events of the other kinds. -/
theorem Task.traces_of_parts {task : Task} {s : RunState} {parts : List Task} (h : task.parts? s = some parts) :
    ∀ t ∈ parts, t.traces? ≠ some .securityWarning := by
  rintro t ht warns
  have quiet := task.parts_quiet s
  rw [h, Option.map_some] at quiet
  have kept : t.renders = false := by
    rw [Task.renders, warns]
    decide
  have traces := traces_parts quiet rfl t (List.mem_filter.mpr ⟨ht, by rw [kept]; rfl⟩)
  exact absurd (traces _ warns) (by decide)

theorem Move.traced_of_unwarned {move : Move} (h : (Task.move move).traces? ≠ some .securityWarning) :
    ∀ event ∈ move.traced, event.kind ≠ .securityWarning := by
  rintro event he
  cases move with
  | status entered =>
    rw [List.mem_singleton.mp he]
    exact fun same => by cases same
  | log kind detail =>
    rw [List.mem_singleton.mp he]
    exact fun same => h (congrArg some same)
  | check | vet | depth | track | pause | express | record | write | stop => cases he

namespace Moment

/-- A moment at which no warning has been traced, and no task traces one. -/
structure Unwarned (m : Moment) : Prop where
  left : ∀ t ∈ m.left, t.traces? ≠ some .securityWarning
  events : ∀ event ∈ m.state.events, event.kind ≠ .securityWarning

theorem Unwarned.move {move : Move} {left : List Task} {s : RunState} (h : Unwarned ⟨.move move :: left, s⟩) :
    ∀ event ∈ (move.effect s).events, event.kind ≠ .securityWarning := by
  rw [move.effect_events, RunState.traceWith]
  refine List.forall_mem_append.mpr ⟨h.events, fun event he => ?_⟩
  exact Move.traced_of_unwarned (h.left _ List.mem_cons_self) event (List.mem_of_mem_take he)

theorem Unwarned.next {m n : Moment} (next : Next m n) (h : m.Unwarned) : n.Unwarned := by
  cases next with
  | made => exact ⟨(List.forall_mem_cons.mp h.left).2, h.move⟩
  | opened hp =>
    exact ⟨List.forall_mem_append.mpr ⟨Task.traces_of_parts hp, (List.forall_mem_cons.mp h.left).2⟩, h.events⟩

theorem Unwarned.ends {m : Moment} (h : m.Unwarned) (ends : m.Ends) :
    ∀ event ∈ m.outcome.2.events, event.kind ≠ .securityWarning := by
  cases ends with
  | done => exact h.events
  | stopped hv =>
    rw [outcome_stopped hv]
    exact h.move

/-- A moment whose move makes the guard note a hit. -/
def Notes (m : Moment) (hit : Hit) : Prop :=
  ∃ move left, m.left = .move move :: left ∧ hit ∉ m.state.engine.guard.hits ∧
    hit ∈ (move.effect m.state).engine.guard.hits

/-- A hit that is noted at a moment of a run was noted at first, or at a moment before. -/
theorem Reaches.notes {m n : Moment} (h : m.Reaches n) {hit : Hit} (noted : hit ∈ n.state.engine.guard.hits) :
    hit ∈ m.state.engine.guard.hits ∨ ∃ between, m.Reaches between ∧ between.Notes hit := by
  induction h with
  | refl => exact .inl noted
  | @tail before after reached next ih =>
    by_cases earlier : hit ∈ before.state.engine.guard.hits
    · exact ih earlier
    · cases next with
      | made => exact .inr ⟨_, reached, _, _, rfl, earlier, noted⟩
      | opened => exact absurd noted earlier

theorem Ends.notes {m : Moment} (h : m.Ends) {hit : Hit} (noted : hit ∈ m.outcome.2.engine.guard.hits) :
    hit ∈ m.state.engine.guard.hits ∨ m.Notes hit := by
  cases h with
  | done => exact .inl noted
  | @stopped move halt left s hv =>
    rw [outcome_stopped hv] at noted
    by_cases earlier : hit ∈ s.engine.guard.hits
    · exact .inl earlier
    · exact .inr ⟨move, left, rfl, earlier, noted⟩

end Moment

theorem RunRequest.unwarned_first (q : RunRequest) (engine : Engine) (p : Program) (store : Store) :
    (q.first engine p store).Unwarned := by
  refine ⟨?_, List.forall_mem_nil _⟩
  cases q <;> simp [first, tasks, Task.showing, Task.handling, Task.starting, Task.traces?]

/-- The warnings that the end of a run traces tell of the hits that have been noted. -/
theorem RunState.warnings_of_finish {s : RunState} (unwarned : ∀ event ∈ s.events, event.kind ≠ .securityWarning)
    {error : Option RunError} {event : Event} (he : event ∈ (s.finish error).1.events)
    (warns : event.kind = .securityWarning) : ∃ hit ∈ s.engine.guard.hits, event.detail = hit.text := by
  rw [finish_eq] at he
  rcases List.mem_append.mp he with he | he
  · exact absurd warns (unwarned event he)
  · have closing := List.mem_of_mem_take he
    simp only [closingEvents, List.mem_append, List.mem_map, List.mem_singleton] at closing
    rcases closing with (⟨hit, noted, rfl⟩ | ⟨e, -, rfl⟩) | rfl
    · exact ⟨hit, noted, rfl⟩
    · cases warns
    · cases warns

namespace Engine

/-- A hit that a move of a run makes the guard note. -/
def NotedDuring (engine : Engine) (p : Program) (q : RunRequest) (hit : Hit) : Prop :=
  ∃ store m, engine.storeForRun = .ok store ∧ (q.first engine p store).Reaches m ∧ m.Notes hit

/-- A hit that a use makes the guard note, after the last one that asks for a run. -/
def NotedSince (engine : Engine) (uses : List Use) (hit : Hit) : Prop :=
  ∃ earlier u since, uses = earlier ++ u :: since ∧ (∀ v ∈ u :: since, v.requests = false) ∧
    hit ∉ (engine.after earlier).guard.hits ∧ hit ∈ ((engine.after earlier).use u).guard.hits

/-! ## Books -/

/-- A run that is asked for is counted. -/
theorem use_request_statistics {engine : Engine} {p : Program} {q : RunRequest} {r : RunResult}
    (h : (q.step engine p).result = .ok r) :
    ∃ store, (engine.use (.request p q)).statistics = engine.statistics.count r.status r.success store := by
  obtain ⟨store, last, error, -, reached, ends, -, rfl, after⟩ := RunRequest.exists_last h
  refine ⟨last.outcome.2.store, ?_⟩
  rw [use, after, keep_statistics, (last.outcome.2.finish_returned error).counted,
    (reached.lasts.trans ends.lasts).statistics]
  rfl

/-- All runs are counted, each as completed or as failed. -/
theorem after_statistics {engine : Engine} {uses : List Use} (returns : engine.returnsAll uses = true) :
    (engine.after uses).statistics.runs = engine.statistics.runs + uses.countP Use.requests ∧
      (engine.after uses).statistics.completed + (engine.after uses).statistics.failed =
        engine.statistics.completed + engine.statistics.failed + uses.countP Use.requests := by
  -- by induction on the uses, from the last one
  induction uses using List.reverseRecOn with
  | nil => exact ⟨rfl, rfl⟩
  | append_singleton uses u ih =>
    have earlier := returns
    rw [returnsAll_append, Bool.and_eq_true] at earlier
    obtain ⟨runs, ends⟩ := ih earlier.1
    rw [after_concat, List.countP_append, List.countP_singleton]
    cases hu : u.requests with
    | false =>
      rw [use_statistics hu]
      exact ⟨runs, ends⟩
    | true =>
      obtain ⟨p, q, rfl⟩ := Use.eq_request hu
      obtain ⟨-, r, hr⟩ := returns_at returns
      obtain ⟨store, counted⟩ := use_request_statistics hr
      rw [counted]
      refine ⟨by simp [Statistics.count, runs, Nat.add_assoc], ?_⟩
      cases r.success <;> simp [Statistics.count] <;> omega

/-- What the guard has noted was noted after the last run. -/
theorem notedSince_of_mem {engine : Engine} (clean : engine.guard.hits = []) {uses : List Use}
    (returns : engine.returnsAll uses = true) {hit : Hit} (noted : hit ∈ (engine.after uses).guard.hits) :
    engine.NotedSince uses hit := by
  induction uses using List.reverseRecOn with
  | nil =>
    rw [after, List.foldl_nil, clean] at noted
    cases noted
  | append_singleton uses u ih =>
    rw [after_concat] at noted
    cases hu : u.requests with
    | true =>
      -- a run leaves no hit behind
      obtain ⟨p, q, rfl⟩ := Use.eq_request hu
      obtain ⟨-, r, hr⟩ := returns_at returns
      obtain ⟨store, last, error, -, -, -, -, -, after⟩ := RunRequest.exists_last hr
      rw [use, after, (last.outcome.2.finish_booked error).hits] at noted
      cases noted
    | false =>
      have direct : ∀ v ∈ [u], v.requests = false := by simpa using hu
      by_cases earlier : hit ∈ (engine.after uses).guard.hits
      · rw [returnsAll_append, Bool.and_eq_true] at returns
        obtain ⟨before, v, since, rfl, others, fresh, now⟩ := ih returns.1 earlier
        refine ⟨before, v, since ++ [u], by rw [List.append_assoc]; rfl, ?_, fresh, now⟩
        rw [← List.cons_append]
        exact List.forall_mem_append.mpr ⟨others, direct⟩
      · exact ⟨uses, u, [], rfl, direct, earlier, noted⟩

/-- The books of an engine. Whatever an engine that has run nothing yet is used for, and whatever goes on around it,
if every run that is asked for comes to a result, all runs have been counted, each as completed or as failed. After
each of them the status, the counters and the guard of the engine agree with the result and with the store of the run,
which has come to its last moment. A warning among the events of a result tells of a hit that was noted in this very
run, or from outside after the last run before it. -/
theorem books_agree (options : RunOptions) (shared : Option Store) (storeGuard : Option Guard) (cancelled : Bool)
    (around : Surroundings) (uses : List Use)
    (returns : (opened options shared storeGuard cancelled around).returnsAll uses = true) :
    let engine := opened options shared storeGuard cancelled around
    let statistics := (engine.after uses).statistics
    statistics.runs = uses.countP Use.requests ∧ statistics.runs = statistics.completed + statistics.failed ∧
      ∀ before p q later, uses = before ++ .request p q :: later →
        ∃ r store last, (q.step (engine.after before) p).result = .ok r ∧
          (engine.after before).storeForRun = .ok store ∧
          (q.first (engine.after before) p store).Reaches last ∧ last.Ends ∧
          r.Booked last.outcome.2.store (engine.after (before ++ [.request p q])) ∧
          ∀ event ∈ r.events, event.kind = .securityWarning →
            ∃ hit, event.detail = hit.text ∧
              ((engine.after before).NotedDuring p q hit ∨ engine.NotedSince before hit) := by
  intro engine statistics
  obtain ⟨runs, ends⟩ := after_statistics returns
  have counted : statistics.runs = uses.countP Use.requests := runs.trans (Nat.zero_add _)
  refine ⟨counted, ?_, ?_⟩
  · rw [counted]
    exact (ends.trans (Nat.zero_add _)).symm
  rintro before p q later rfl
  obtain ⟨earlier, r, hr⟩ := returns_at returns
  obtain ⟨store, last, error, hs, reached, ended, -, told, after⟩ := RunRequest.exists_last hr
  refine ⟨r, store, last, hr, hs, reached, ended, ?_, fun event he warns => ?_⟩
  · rw [after_concat, use, told]
    exact after ▸ last.outcome.2.finish_booked error
  · have unwarned := (reached.keeps (fun _ _ next => Moment.Unwarned.next next)
      (q.unwarned_first _ p store)).ends ended
    rw [told] at he
    obtain ⟨hit, noted, detail⟩ := RunState.warnings_of_finish unwarned he warns
    refine ⟨hit, detail, ?_⟩
    -- it was noted by the last move, by one before it, or before the run
    rcases ended.notes noted with noted | notes
    · rcases reached.notes noted with first | ⟨between, passed, notes⟩
      · exact .inr (notedSince_of_mem rfl earlier first)
      · exact .inl ⟨store, between, hs, passed, notes⟩
    · exact .inl ⟨store, last, hs, reached, notes⟩

/-- A program that declares two variables, one of them with a text that is denied. -/
def lapse : Program :=
  ⟨"lapse", "H", [⟨"H", [], [], .text .label (.var "count"), []⟩], [⟨"count", .int 0⟩, ⟨"note", .text "eval"⟩],
    [], []⟩

/-- A lenient engine whose runs share a store. A minute passes before it turns to its surroundings a third time. -/
def lenient : Engine :=
  opened { RunOptions.default with level := .permissive } (some (.empty 5)) none false
    { Surroundings.quiet with elapsed := fun contact => if contact < 2 then 0 else 60 }

/-- A run, and a write from outside. -/
def visit : List Use :=
  [.request lapse (.run none none), .subscribe .record, .write "tag" (.text "exec") none]

/-- The run is out of time, and a dispatch after it finds no screen: both have been counted. The dispatch tells of the
hit from outside and of the one that it has met itself. -/
theorem books_agree_visit :
    (lenient.after visit).status = .timedOut ∧
      ∃ r store last, ((RunRequest.dispatch "J" "go").step (lenient.after visit) lapse).result = .ok r ∧
        (RunRequest.first (lenient.after visit) lapse (.dispatch "J" "go") store).Reaches last ∧
        r.Booked last.outcome.2.store (lenient.after (visit ++ [.request lapse (.dispatch "J" "go")])) ∧
        (lenient.after (visit ++ [.request lapse (.dispatch "J" "go")])).statistics.runs = 2 ∧
        r.hits = [⟨"exec", "state variable 'tag'"⟩, ⟨"eval", "state variable 'note'"⟩] := by
  have returns : lenient.returnsAll (visit ++ [.request lapse (.dispatch "J" "go")]) = true := by decide +kernel
  have told : ((RunRequest.dispatch "J" "go").step (lenient.after visit) lapse).result.toOption.any
      (·.hits == [⟨"exec", "state variable 'tag'"⟩, ⟨"eval", "state variable 'note'"⟩]) = true := by
    decide +kernel
  have late : (lenient.after visit).status = .timedOut := by decide +kernel
  unfold lenient at returns told late ⊢
  obtain ⟨counted, -, booked⟩ := books_agree _ _ _ _ _ _ returns
  obtain ⟨r, store, last, hr, -, reached, -, agrees, -⟩ := booked visit lapse (.dispatch "J" "go") [] rfl
  obtain ⟨r', hr', hits⟩ := EngineStep.exists_result told
  cases hr.symm.trans hr'
  have two : (visit ++ [Use.request lapse (.dispatch "J" "go")]).countP Use.requests = 2 := rfl
  exact ⟨late, r, store, last, hr, reached, agrees, counted.trans two, beq_iff_eq.mp hits⟩

end Engine

end Screenplay
