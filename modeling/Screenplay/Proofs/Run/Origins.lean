/-
Where the records of a run come from. Whatever a run navigates to, calls, executes or writes comes from a
site of the program: a run records nothing else, however it is guarded, whatever store it starts with and
whether it stops or not. So what a judgement says of all sites of a program holds of what its runs leave
behind.
-/
import Screenplay.Proofs.Run.Results
import Screenplay.Proofs.Run.Traversal
import Screenplay.Proofs.Store.Writes

namespace Screenplay

/-! ## Origins -/

/-- A variable that a program may write. -/
inductive Program.Writes (p : Program) : String → Prop
  | appState {v : StateVar} (h : v ∈ p.state) : p.Writes v.name
  | screenState {s : Screen} (hs : s ∈ p.screens) {v : StateVar} (hv : v ∈ s.state) : p.Writes v.name
  | input {depth : Nat} {label binding : String} (h : p.Has (.node depth (.input label binding))) :
    p.Writes binding
  | list {depth : Nat} {binding : String} {template : Node}
    (h : p.Has (.node depth (.list binding template))) : p.Writes binding
  | update {name source : String} {value : Expr} (h : p.Has (.action (.update name value source))) :
    p.Writes name
  | loop {name range : String} {body : List Action} (h : p.Has (.action (.loop name range body))) :
    p.Writes name

/-- An event whose record comes from an action of the program, or from a variable that it writes. -/
def Event.Originates (p : Program) (event : Event) : Prop :=
  match event.kind with
  | .navigation => ∃ args, p.Has (.action (.navigate ⟨event.detail, args⟩))
  | .functionCalled => ∃ function args texts, p.Has (.action (.call function args)) ∧
      event.detail = function ++ "(" ++ Text.join ", " texts ++ ")"
  | .actionExecuted => ∃ action, p.Has (.action action) ∧ event.detail = action.text
  | .stateUpdated => ∃ name value, p.Writes name ∧ event.detail = s!"{name} = {Value.display value}"
  | _ => True

/-- A state of a run whose records come from the program, its store apart from what that held before. -/
structure RunState.Originates (p : Program) (before : Store) (s : RunState) : Prop where
  store : Store.Writes p.Writes before s.store
  navigations : ∀ target ∈ s.navigations, ∃ args, p.Has (.action (.navigate ⟨target, args⟩))
  events : ∀ event ∈ s.events, event.Originates p
  heard : ∀ d ∈ s.heard, p.Writes d.change.name

namespace RunState.Originates

variable {p : Program} {before : Store} {s : RunState}

theorem first (engine : Engine) (store : Store) : (Run.first engine store).Originates p store :=
  ⟨.refl store, fun _ h => absurd h List.not_mem_nil, fun _ h => absurd h List.not_mem_nil,
    fun _ h => absurd h List.not_mem_nil⟩

theorem log (h : s.Originates p before) {kind : EventKind} {detail : String}
    (he : Event.Originates p ⟨kind, detail⟩) : (s.log kind detail).Originates p before := by
  obtain ⟨events, eq, traced⟩ := s.log_eq kind detail
  rw [eq]
  refine ⟨h.store, h.navigations, ?_, h.heard⟩
  rintro event hm
  rcases traced event hm with hm | rfl
  · exact h.events event hm
  · exact he

/-- The engine is no record. -/
theorem engine (h : s.Originates p before) (engine : Engine) : { s with engine }.Originates p before :=
  ⟨h.store, h.navigations, h.events, h.heard⟩

theorem outside : Run.Detached (Originates p before) := fun _ _ _ h => h.engine _

theorem navigate (h : s.Originates p before) {target : String} {args : List Expr}
    (hn : p.Has (.action (.navigate ⟨target, args⟩))) :
    { s with navigations := s.navigations ++ [target] }.Originates p before := by
  refine ⟨h.store, ?_, h.events, h.heard⟩
  rintro other hm
  rcases List.mem_append.mp hm with hm | hm
  · exact h.navigations other hm
  · rw [List.mem_singleton.mp hm]
    exact ⟨args, hn⟩

theorem write (h : s.Originates p before) {name : String} (hn : p.Writes name) (value : Value)
    (guard : Guard) (engine : Engine) :
    { s with
      store := (s.store.set guard name value).store
      engine
      heard := s.heard ++ (s.store.set guard name value).heard }.Originates p before := by
  refine ⟨h.store.set guard hn value, h.navigations, h.events, ?_⟩
  rintro d hd
  rcases List.mem_append.mp hd with hd | hd
  · exact h.heard d hd
  · rw [Store.set_heard _ _ _ _ d hd]
    exact hn

end RunState.Originates

/-! ## Steps -/

/-- Every error that is not of the kind of undefined names. -/
def RunError.Named (E : RunError → Prop) : Prop := ∀ e, e.kind ≠ "undefined_variable" → E e

theorem Violation.kind_ne_undefined (v : Violation) : (RunError.refused v).kind ≠ "undefined_variable" := by
  rw [RunError.kind]
  cases v.kind <;> decide

namespace Run

variable {p : Program} {before : Store} {E : RunError → Prop} (named : RunError.Named E)

theorem originates_log {kind : EventKind} {detail : String}
    (he : Event.Originates p ⟨kind, detail⟩) :
    Safe (RunState.Originates p before) E (log kind detail) :=
  .modify fun _ h => h.log he

include named

theorem originates_settle (use : Guard → Except Violation Unit × Guard) :
    Safe (RunState.Originates p before) E (do settle (use (← get).engine.guard)) :=
  .settle use (fun _ h => h.engine _) fun _ _ v _ => named _ v.kind_ne_undefined

theorem originates_check (cs : List Check) :
    Safe (RunState.Originates p before) E (check cs) :=
  originates_settle named (·.check cs)

theorem originates_write {name : String} (hn : p.Writes name) (value : Value) :
    Safe (RunState.Originates p before) E (write name value) := by
  refine .write RunState.Originates.outside (fun s h => ⟨h.write hn value _ _, ?_⟩)
    (originates_log ⟨name, value, hn, rfl⟩)
  rintro e he
  rcases Store.set_error he with ⟨v, -, rfl⟩ | ⟨l, -, other, -, rfl⟩
  · exact named _ v.kind_ne_undefined
  · exact named _ (by simp [RunError.kind])

theorem originates_writeMissing {name : String} (hn : p.Writes name) (value : Value) :
    Safe (RunState.Originates p before) E (writeMissing name value) :=
  .writeMissing (originates_write named hn value)

theorem originates_arguments (args : List Expr) :
    Safe (RunState.Originates p before) E (arguments args) :=
  .arguments RunState.Originates.outside (fun _ => originates_check named _)
    (fun _ _ => named _ (by simp [RunError.kind])) args

/-- Every step of a run records what comes from the program, and fails for an undefined name only where
a button names a handler that its screen does not have. -/
theorem steps_originate (missing : ∀ s ∈ p.screens, ∀ name, Site.handler name ∈ s.sites →
      s.handler? name = none → E (.undefinedHandler name none)) :
    Steps p (RunState.Originates p before) E where
  outside := RunState.Originates.outside
  -- most errors are of another kind than that of an undefined name
  cancelled := named _ (by decide)
  timedOut _ := named _ (by simp [RunError.kind])
  outOfMemory _ _ := named _ (by simp [RunError.kind])
  status _ := .modify fun _ h => (h.engine _).log trivial
  accept _ := .accept (originates_check named _) fun _ _ => named _ (Violation.kind_ne_undefined _)
  screen s _ := originates_settle named (·.checkScreen s)
  appState v hv := originates_writeMissing named (.appState hv) v.value
  screenState _ hs v hv := originates_writeMissing named (.screenState hs hv) v.value
  node _ _ _ := .checkDepth fun _ => named _ (Violation.kind_ne_undefined _)
  rendered _ := originates_log trivial
  tracked _ := .modify fun _ h => ⟨⟨h.store.values, h.store.history⟩, h.navigations, h.events, h.heard⟩
  input _ _ _ h := originates_writeMissing named (.input h) _
  list _ _ _ h := originates_writeMissing named (.list h) _
  missing := missing
  block _ _ _ := .checkDepth fun _ => named _ (Violation.kind_ne_undefined _)
  executed a h := originates_log ⟨a, h, rfl⟩
  navigate _ h := .navigate (fun _ => named _ (by decide)) (originates_check named _)
    (originates_arguments named _) (fun _ hs => hs.navigate h) (originates_log ⟨_, h⟩)
  update _ _ _ h _ := .update RunState.Originates.outside (fun _ => originates_log trivial)
    (fun _ => originates_check named _) fun _ _ _ _ => originates_write named (.update h) _
  call function args h := .call (originates_check named _) (fun _ => named _ (by simp [RunError.kind]))
    (originates_arguments named args) fun texts => originates_log ⟨function, args, texts, h, rfl⟩
  code _ _ := .skipCode (originates_check named _) fun _ => originates_log trivial
  largeLoop _ _ _ _ _ := named _ (by decide)
  invalidRange _ _ _ _ _ := named _ (by simp [RunError.kind])
  counted _ _ _ h _ := originates_write named (.loop h) _

end Run

/-! ## Results -/

/-- An outcome of a step of an engine whose records come from a program, the store apart from what it held
before. -/
structure RunResult.Originates (p : Program) (before : Store) (heard : List Delivery) (r : RunResult) :
    Prop where
  values : ∀ e ∈ r.values, e ∈ before.values ∨ p.Writes e.1
  history : ∀ c ∈ r.history, c ∈ before.history ∨ p.Writes c.name
  navigations : ∀ target ∈ r.navigations, ∃ args, p.Has (.action (.navigate ⟨target, args⟩))
  events : ∀ event ∈ r.events, event.Originates p
  heard : ∀ d ∈ heard, p.Writes d.change.name

theorem Event.originates_of_closing {p : Program} {event : Event} (h : event.kind ∈ closingKinds) :
    event.Originates p := by
  simp only [closingKinds, List.mem_cons, List.not_mem_nil, or_false] at h
  unfold Event.Originates
  rcases h with h | h | h <;> rw [h] <;> trivial

/-- What an engine performs has records that come from the program, and the errors of the run. -/
theorem Engine.perform_originates {engine : Engine} {p : Program} {E : RunError → Prop} {run : Run Unit}
    (hr : ∀ before, run.Safe (RunState.Originates p before) E) {r : RunResult}
    (h : (engine.perform run).result = .ok r) :
    (∃ before, engine.storeForRun = .ok before ∧
      r.Originates p before (engine.perform run).heard) ∧ ∀ e, r.error = some e → E e := by
  obtain ⟨store, hs, tells, heard, stopped⟩ := perform_ok h
  obtain ⟨last, errors⟩ := hr store _ (.first engine store)
  refine ⟨⟨store, hs, ?_⟩, fun e he => errors e (stopped e he)⟩
  refine ⟨?_, ?_, ?_, ?_, ?_⟩
  · rw [tells.values]
    exact last.store.values
  · rw [tells.history]
    exact last.store.history
  · rw [tells.navigations]
    exact last.navigations
  · rintro event hm
    rcases tells.events event hm with hm | hk
    · exact last.events event hm
    · exact Event.originates_of_closing hk
  · rw [heard]
    exact last.heard

end Screenplay
