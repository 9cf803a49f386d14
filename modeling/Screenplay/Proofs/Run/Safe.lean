/-
What holds through a run, and how it may stop. A part of a run is safe for a property of states and a
property of errors if it keeps the one wherever it ends, and has the other whenever it stops with an
error. Every step of a run is safe if a few things are: its checks, what it writes, what it records,
and the errors it stops with by itself.
-/
import Screenplay.Proofs.Run.Steps

namespace Screenplay.Run

variable {α β : Type} {I : RunState → Prop} {E : RunError → Prop}

/-- A property of states that tells neither how often an engine has turned to its surroundings nor whether the
end of the run has been asked for. -/
def Detached (I : RunState → Prop) : Prop :=
  ∀ s cancelled contacts, I s → I { s with engine := { s.engine with cancelled, contacts } }

/-- A part of a run that keeps a property of states, and stops with errors of some sort only. -/
def Safe (I : RunState → Prop) (E : RunError → Prop) (m : Run α) : Prop :=
  ∀ s, I s → I (m s).2 ∧ ∀ e, (m s).1 = .error (.error e) → E e

namespace Safe

/-! ## Steps -/

theorem pure (a : α) : Safe I E (Pure.pure a : Run α) := fun _ h => ⟨h, nofun⟩

theorem stop {e : RunError} (he : E e) : Safe I E (stop e : Run α) := by
  intro s hs
  refine ⟨hs, ?_⟩
  rintro _ ⟨⟩
  exact he

theorem breakdown (b : Breakdown) : Safe I E (MonadExcept.throw (.breakdown b) : Run α) :=
  fun _ h => ⟨h, nofun⟩

theorem get : Safe I E (MonadState.get : Run RunState) := fun _ h => ⟨h, nofun⟩

theorem options : Safe I E options := fun _ h => ⟨h, nofun⟩

theorem look : Safe I E look := fun _ h => ⟨h, nofun⟩

theorem modify {f : RunState → RunState} (hf : ∀ s, I s → I (f s)) :
    Safe I E (modify f : Run PUnit) :=
  fun s h => ⟨hf s h, nofun⟩

/-- What follows a step knows the result. -/
theorem bind_yields {m : Run α} {f : α → Run β} {Q : α → Prop} (hm : Safe I E m)
    (hq : Yields m Q) (hf : ∀ a, Q a → Safe I E (f a)) : Safe I E (m >>= f) := by
  intro s h
  obtain ⟨hs, he⟩ := hm s h
  rw [bind_run]
  rcases hr : m s with ⟨e | a, s'⟩
  · rw [hr] at hs he
    refine ⟨hs, ?_⟩
    rintro _ ⟨⟩
    exact he _ rfl
  · rw [hr] at hs
    exact hf a (hq s a (by rw [hr])) s' hs

theorem bind {m : Run α} {f : α → Run β} (hm : Safe I E m) (hf : ∀ a, Safe I E (f a)) :
    Safe I E (m >>= f) :=
  bind_yields (Q := fun _ => True) hm (fun _ _ _ => trivial) fun a _ => hf a

theorem discard {m : Run α} (hm : Safe I E m) : Safe I E (discard m) := bind hm fun _ => pure _

/-- Nothing follows a stop. -/
theorem stop_bind {e : RunError} (he : E e) {f : α → Run β} : Safe I E (Run.stop e >>= f) := by
  intro s hs
  refine ⟨hs, ?_⟩
  rintro _ ⟨⟩
  exact he

/-- What follows a look at the variables knows whose they are. -/
theorem bind_look {f : (String → Option Value) → Run β}
    (h : ∀ s, I s → Safe I E (f s.store.get?)) : Safe I E (Run.look >>= f) :=
  fun s hs => h s hs s hs

theorem checkDepth {entity : String} {depth : Nat}
    (h : maxDepth < depth → E (.refused (.limit entity depth maxDepth))) :
    Safe I E (checkDepth entity depth) := by
  unfold Run.checkDepth
  split
  · next deep => exact stop (h deep)
  · exact pure _

theorem holds (condition : Expr) : Safe I E (holds condition) := by
  refine bind look fun look => ?_
  split
  · exact pure _
  · exact breakdown _

theorem require (shortage : Option Shortage) : Safe I E (Run.require shortage) := by
  cases shortage with
  | none => exact pure _
  | some shortage => exact breakdown _

/-- Where a text is written out, the run turns to its surroundings, and breaks off if they have no room. -/
theorem express (outside : Detached I) (shortage : Nat → Option Shortage) :
    Safe I E (Run.express shortage) :=
  fun s hs => Safe.require _ _ (outside s s.engine.cancelled (s.engine.contacts + 1) hs)

/-- A checkpoint turns to the surroundings, and stops a run that is cancelled or exceeds a budget. -/
theorem checkpoint (outside : Detached I) (cancelled : E .cancelled) (timedOut : ∀ seconds, E (.timedOut seconds))
    (outOfMemory : ∀ used allowed, E (.outOfMemory used allowed)) : Safe I E checkpoint := by
  intro s hs
  unfold Run.checkpoint
  rw [get_bind_run, set_bind_run]
  have rest : Safe I E (do
      if s.engine.inquire.cancelled then Run.stop .cancelled
      if s.engine.options.maxSeconds < s.engine.around.elapsed s.engine.contacts then
        Run.stop (.timedOut s.engine.options.maxSeconds)
      if s.engine.options.maxMemory < s.store.memory - s.baseline then
        Run.require ((Value.wholeShortage? (s.store.memory - s.baseline)).or
          (Value.wholeShortage? s.engine.options.maxMemory))
        Run.stop (.outOfMemory (s.store.memory - s.baseline) s.engine.options.maxMemory)) := by
    dsimp only
    split
    · exact stop_bind cancelled
    · split
      · exact stop_bind (timedOut _)
      · split
        · exact bind (require _) fun _ => stop (outOfMemory _ _)
        · exact pure _
  exact rest _ (outside s _ (s.engine.contacts + 1) hs)

/-! ## Guards and the store -/

/-- Settling what the guard makes of something: it goes on with another guard, or refuses. -/
theorem settle (use : Guard → Except Violation Unit × Guard)
    (kept : ∀ s, I s → I { s with engine := { s.engine with guard := (use s.engine.guard).2 } })
    (refused : ∀ s, I s → ∀ v, (use s.engine.guard).1 = .error v → E (.refused v)) :
    Safe I E (do settle (use (← MonadState.get).engine.guard)) := by
  intro s hs
  have after := kept s hs
  have stopped := refused s hs
  show I (Run.settle (use s.engine.guard) s).2 ∧
    ∀ e, (Run.settle (use s.engine.guard) s).1 = .error (.error e) → E e
  rcases hu : use s.engine.guard with ⟨v | ⟨⟩, guard⟩
  · rw [hu] at after stopped
    refine ⟨after, ?_⟩
    rintro _ ⟨⟩
    exact stopped v rfl
  · rw [hu] at after
    exact ⟨after, nofun⟩

theorem check (cs : List Check)
    (kept : ∀ s, I s →
      I { s with engine := { s.engine with guard := (s.engine.guard.check cs).2 } })
    (refused : ∀ s, I s → ∀ v, (s.engine.guard.check cs).1 = .error v → E (.refused v)) :
    Safe I E (check cs) :=
  settle (·.check cs) kept refused

/-- A write changes the store, the guard it passes and what listeners have heard, and is traced. -/
theorem write {name : String} {value : Value} (outside : Detached I)
    (written : ∀ s, I s →
      let w := s.store.set s.engine.writeGuard name value
      I { s with store := w.store, engine := s.engine.afterWrite w, heard := s.heard ++ w.heard } ∧
        ∀ e, w.result = .error e → E e)
    (traced : Safe I E (log .stateUpdated s!"{name} = {value.display}")) :
    Safe I E (write name value) := by
  intro s hs
  obtain ⟨after, stopped⟩ := written s hs
  unfold Run.write
  rw [get_bind_run, set_bind_run]
  cases hr : (s.store.set s.engine.writeGuard name value).result with
  | ok change => exact bind (express outside _) (fun _ => traced) _ after
  | error e => exact stop (stopped e hr) _ after

theorem writeMissing {name : String} {value : Value} (h : Safe I E (Run.write name value)) :
    Safe I E (Run.writeMissing name value) := by
  refine bind get fun s => ?_
  split
  · exact pure _
  · exact h

theorem seed {vs : List StateVar} (h : ∀ v ∈ vs, Safe I E (Run.writeMissing v.name v.value)) :
    Safe I E (seed vs) := by
  induction vs with
  | nil => exact pure _
  | cons v vs ih =>
    obtain ⟨first, later⟩ := List.forall_mem_cons.mp h
    exact bind first fun _ => ih later

/-! ## Actions without blocks -/

/-- Texts of arguments that are too long, or refused, stop the run. -/
theorem arguments (outside : Detached I) (checked : ∀ text, Safe I E (Run.check [.text text "call argument"]))
    (long : ∀ length, maxArgument < length → E (.longArgument length)) (args : List Expr) :
    Safe I E (arguments args) := by
  induction args with
  | nil => exact pure _
  | cons arg args ih =>
    have argument : Safe I E (argument arg) := by
      refine bind look fun look => bind (express outside _) fun _ => ?_
      dsimp only
      split
      · next h => exact stop_bind (long _ h)
      · exact bind (checked _) fun _ => pure _
    exact bind argument fun _ => bind ih fun _ => pure _

theorem navigate {n : Navigation} (short : maxTarget < n.target.length → E .longTarget)
    (checked : Safe I E (Run.check [.text n.target "navigation target"]))
    (rendered : Safe I E (Run.arguments n.args))
    (recorded : ∀ s, I s → I { s with navigations := s.navigations ++ [n.target] })
    (traced : Safe I E (log .navigation n.target)) : Safe I E (navigate n) := by
  unfold Run.navigate
  split
  · next long => exact stop_bind (short long)
  · exact bind checked fun _ => bind rendered.discard fun _ => bind (modify recorded) fun _ => traced

theorem call {function : String} {args : List Expr}
    (checked : Safe I E (Run.check [.text function "function call"]))
    (few : maxArguments < args.length → E (.manyArguments args.length))
    (rendered : Safe I E (Run.arguments args))
    (traced : ∀ texts, Safe I E (log .functionCalled (function ++ "(" ++ Text.join ", " texts ++ ")"))) :
    Safe I E (call function args) := by
  refine bind checked fun _ => ?_
  dsimp only
  split
  · next many => exact stop_bind (few many)
  · exact bind rendered traced

theorem skipCode {text : String} (checked : Safe I E (Run.check (Check.string text "action code")))
    (traced : ∀ record, Safe I E (log .codeSkipped record)) : Safe I E (skipCode text) :=
  bind checked fun _ => traced _

/-- An assignment writes what the expression evaluates to; a text is checked first. -/
theorem update {name source : String} {value : Expr} (outside : Detached I)
    (traced : ∀ detail, Safe I E (log .unsupportedExpression detail))
    (checked : ∀ text, Safe I E (Run.check (Check.string text s!"value of '{name}'")))
    (written : ∀ s, I s → ∀ v, value.evaluate s.store.get? = .ok v → Safe I E (Run.write name v)) :
    Safe I E (update name value source) := by
  refine bind_look fun s hs => bind (express outside _) fun _ => ?_
  split
  · exact traced _
  · next v he =>
    split
    · exact bind (checked _) fun _ => written s hs _ he
    · exact written s hs v he

/-! ## Acceptance -/

theorem accept {p : Program} {risk : Option Risk} (checked : Safe I E (Run.check p.checks))
    (risky : ∀ found allowed, E (.refused (.risk found allowed))) : Safe I E (accept p risk) := by
  unfold Run.accept
  cases risk with
  | none => exact checked
  | some found =>
    refine bind options fun options => ?_
    dsimp only
    split
    · exact stop_bind (risky _ _)
    · exact checked

/-! ## Loops -/

theorem rounds {name : String} {body : Run Unit} (paused : Safe I E Run.checkpoint)
    (counted : ∀ i, Safe I E (Run.write name (.int i))) (hb : Safe I E body) :
    ∀ n i, Safe I E (Run.rounds name body n i)
  | 0, _ => pure _
  | n + 1, i => bind paused fun _ => bind (counted _) fun _ => bind hb fun _ =>
      rounds paused counted hb n (i + 1)

theorem loop {name range : String} {size : Nat} {body : Run Unit}
    (large : maxLoopBody < size → E .largeLoop)
    (invalid : Range.ofText? range = none → E (.invalidRange range))
    (turns : ∀ n i, Safe I E (Run.rounds name body n i)) : Safe I E (loop name range size body) := by
  unfold Run.loop
  by_cases h : maxLoopBody < size
  · rw [if_pos h]
    exact stop_bind (large h)
  · rw [if_neg h]
    split
    · next hr => exact stop (invalid hr)
    · exact bind options fun _ => turns _ _

end Safe

end Screenplay.Run
