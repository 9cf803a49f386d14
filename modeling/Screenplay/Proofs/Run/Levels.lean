/-
The level at run time. A guard of any level agrees with the strict one on all checks, unless the strict one
refuses a hit on its denylist. So a run goes through the same moves at every level, and comes to the same result,
unless the strict run is stopped for a hit.
-/
import Screenplay.Proofs.Guard.Checking
import Screenplay.Proofs.Run.Mirrors
import Screenplay.Proofs.Store.Writes

namespace Screenplay

/-! ## Guards of two levels -/

namespace Guard

/-- What the strict guard and the guard of a level come to: the strict one refuses a hit, or both come to the same
outcome. Neither has noted anything. -/
def Agree (level : Level) (strict other : Except Violation Unit × Guard) : Prop :=
  (∃ pattern place, strict = (.error (.denied pattern place), .ofLevel .strict)) ∨
    ∃ outcome, strict = (outcome, .ofLevel .strict) ∧ other = (outcome, .ofLevel level)

theorem agree_check (level : Level) (cs : List Check) :
    Agree level ((ofLevel .strict).check cs) ((ofLevel level).check cs) := by
  have kept : ((ofLevel .strict).check cs).2 = ofLevel .strict := check_strict rfl cs
  by_cases h : ∃ pattern place, ((ofLevel .strict).check cs).1 = .error (.denied pattern place)
  · obtain ⟨pattern, place, h⟩ := h
    exact .inl ⟨pattern, place, Prod.ext h kept⟩
  · simp only [not_exists] at h
    have same : (ofLevel level).check cs = (((ofLevel .strict).check cs).1, ofLevel level) :=
      check_eq_of_covers rfl (Policy.ceiling_ofLevel .strict level) (Policy.covers_ofLevel level) h
    exact .inr ⟨_, Prod.ext rfl kept, same⟩

theorem agree_checkTree (level : Level) (screen : String) (ui : Node) :
    Agree level ((ofLevel .strict).checkTree screen ui) ((ofLevel level).checkTree screen ui) := by
  unfold checkTree
  cases ui.count with
  | error violation => exact .inr ⟨.error violation, rfl, rfl⟩
  | ok count => exact agree_check level _

theorem agree_checkScreen (level : Level) (screen : Screen) :
    Agree level ((ofLevel .strict).checkScreen screen) ((ofLevel level).checkScreen screen) := by
  unfold checkScreen
  rcases agree_check level screen.checks with ⟨pattern, place, hit⟩ | ⟨outcome, strict, other⟩
  · rw [hit]
    exact .inl ⟨pattern, place, rfl⟩
  · rw [strict, other]
    cases outcome with
    | error violation => exact .inr ⟨.error violation, rfl, rfl⟩
    | ok => exact agree_checkTree level screen.name screen.ui

end Guard

namespace Store

/-- Listeners hear and do the same whatever the guard is. -/
theorem notify_under (guard other : Guard) (change : Change) (s : Store) (heard : List Delivery)
    (listeners : List Listener) :
    notify other change s heard listeners = { notify guard change s heard listeners with guard := other } := by
  induction listeners generalizing s heard with
  | nil => rfl
  | cons l later ih =>
    rw [notify, notify]
    cases s.react l.reaction with
    | ok s' => exact ih s' _
    | error e => rfl

/-- A write under the strict guard is refused for a hit, or it is the same under the guard of a level. -/
theorem set_agree (level : Level) (s : Store) (name : String) (value : Value) :
    (∃ pattern place, (s.set (.ofLevel .strict) name value).result = .error (.refused (.denied pattern place))) ∨
      (s.set (.ofLevel .strict) name value).guard = .ofLevel .strict ∧
        s.set (.ofLevel level) name value = { s.set (.ofLevel .strict) name value with guard := .ofLevel level } := by
  unfold set
  rcases Guard.agree_check level (Check.state name value) with ⟨pattern, place, hit⟩ | ⟨outcome, strict, other⟩
  · rw [hit]
    exact .inl ⟨pattern, place, rfl⟩
  · rw [strict, other]
    cases outcome with
    | error violation => exact .inr ⟨rfl, rfl⟩
    | ok => exact .inr ⟨notify_guard _ _ _ _ _, notify_under _ _ _ _ _ _⟩

end Store

/-! ## Runs at two levels -/

/-- An engine at a level, whose guard has noted nothing yet. -/
def Engine.atLevel (engine : Engine) (level : Level) : Engine :=
  { engine with options := { engine.options with level }, guard := .ofLevel level }

/-- An engine that has run nothing yet is at the level of its options. -/
theorem Engine.ofOptions_atLevel (options : RunOptions) (level : Level) :
    (ofOptions options).atLevel level = ofOptions { options with level } := rfl

/-- A refusal for a hit on the denylist. -/
def Halt.OfHit (halt : Halt) : Prop := ∃ pattern place, halt = .error (.refused (.denied pattern place))

namespace RunState

/-- A state at a level. -/
def atLevel (s : RunState) (level : Level) : RunState := { s with engine := s.engine.atLevel level }

/-- A state under the strict guard, and the same state at a level. -/
structure Levels (level : Level) (s t : RunState) : Prop where
  strict : s.engine.guard = .ofLevel .strict
  state : t = s.atLevel level

/-- Checks on which the guards agree stop the strict run for a hit, or both runs go on alike. -/
theorem levels_settled {level : Level} {s : RunState} {strict other : Except Violation Unit × Guard}
    (agree : Guard.Agree level strict other) :
    (∃ halt, Move.settled strict.1 = .error halt ∧ halt.OfHit) ∨
      (Move.settled other.1 = Move.settled strict.1 ∧
        Levels level { s with engine := { s.engine with guard := strict.2 } }
          { s.atLevel level with engine := { (s.atLevel level).engine with guard := other.2 } }) := by
  rcases agree with ⟨pattern, place, rfl⟩ | ⟨outcome, rfl, rfl⟩
  · exact .inl ⟨_, rfl, pattern, place, rfl⟩
  · exact .inr ⟨rfl, rfl, rfl⟩

/-- A write is checked by the guard of the shared store, which is the same in both runs, or by that of the engine. -/
theorem Levels.write {level : Level} {s t : RunState} (h : Levels level s t) (name : String) (value : Value) :
    (∃ halt, (Move.write name value).verdict s = .error halt ∧ halt.OfHit) ∨
      ((Move.write name value).verdict t = (Move.write name value).verdict s ∧
        Levels level ((Move.write name value).effect s) ((Move.write name value).effect t)) := by
  obtain ⟨strict, rfl⟩ := h
  cases hg : s.engine.storeGuard with
  | some guard =>
    -- the shared store has a guard of its own, which no level changes
    have checked : s.engine.writeGuard = guard := by rw [Engine.writeGuard, hg]; rfl
    have same : (s.atLevel level).engine.writeGuard = guard := congrArg (Option.getD · _) hg
    have own : (s.atLevel level).engine.storeGuard = some guard := hg
    rw [Move.verdict, Move.verdict, Move.effect, Move.effect, checked, same]
    unfold Engine.afterWrite
    rw [hg, own]
    exact .inr ⟨rfl, strict, rfl⟩
  | none =>
    have checked : s.engine.writeGuard = .ofLevel .strict := by rw [Engine.writeGuard, hg, ← strict]; rfl
    have relaxed : (s.atLevel level).engine.writeGuard = .ofLevel level := congrArg (Option.getD · _) hg
    have shared : (s.atLevel level).engine.storeGuard = none := hg
    rw [Move.verdict, Move.verdict, Move.effect, Move.effect, checked, relaxed,
      show (s.atLevel level).store = s.store from rfl]
    rcases Store.set_agree level s.store name value with ⟨pattern, place, hit⟩ | ⟨kept, same⟩
    · rw [hit]
      exact .inl ⟨_, rfl, pattern, place, rfl⟩
    · unfold Engine.afterWrite
      rw [hg, shared, same]
      exact .inr ⟨rfl, kept, rfl⟩

/-- Runs at two levels go through the same moves, up to a hit under the strict guard. -/
theorem mirrors_levels (level : Level) : Mirrors (fun _ => false) Halt.OfHit (Levels level) := by
  refine .of_same_parts ?_ ?_
  · rintro s _ ⟨-, rfl⟩ task
    exact Task.parts_congr ⟨rfl, rfl, rfl⟩ rfl task
  · rintro s _ ⟨strict, rfl⟩ move
    cases move with
    | check checks =>
      have agree := Guard.agree_check level checks
      rw [← strict] at agree
      exact levels_settled agree
    | vet screen =>
      have agree := Guard.agree_checkScreen level screen
      rw [← strict] at agree
      exact levels_settled agree
    | write name value => exact Levels.write ⟨strict, rfl⟩ name value
    | log kind detail =>
      rw [Move.effect_log, Move.effect_log]
      exact .inr ⟨rfl, strict, rfl⟩
    | status entered =>
      rw [Move.effect_status, Move.effect_status]
      exact .inr ⟨rfl, strict, rfl⟩
    | depth | track | pause | express | record | stop => exact .inr ⟨rfl, strict, rfl⟩

theorem Levels.finish {level : Level} {s t : RunState} (h : Levels level s t) (error : Option RunError) :
    (t.finish error).1 = (s.finish error).1 := by
  obtain ⟨strict, rfl⟩ := h
  rw [finish_eq, finish_eq]
  have closing : (s.atLevel level).closingEvents error = s.closingEvents error := by
    unfold closingEvents
    rw [strict]
    rfl
  dsimp only
  rw [closing, strict]
  rfl

end RunState

/-! ## Results -/

/-- A run that is stopped by an error has it in its result. -/
theorem RunRequest.result_of_stopped {engine : Engine} {store : Store} (hs : engine.storeForRun = .ok store)
    {p : Program} {q : RunRequest} {e : RunError} (h : (q.first engine p store).outcome.1 = .error (.error e)) :
    ∃ r, (q.step engine p).result = .ok r ∧ r.error = some e := by
  rcases RunRequest.step_of_reaches hs (q := q) (p := p) .refl with ⟨error, ended, step⟩ | ⟨b, broken, -⟩
  · rw [h] at ended
    cases error <;> cases ended
    exact ⟨_, congrArg EngineStep.result step, rfl⟩
  · rw [h] at broken
    cases broken

/-- The level at run time matters for hits on the denylist only: unless the strict run ends with the error of a hit,
the result is the same at every level. -/
theorem RunRequest.level_only_matters_for_hits (engine : Engine) (p : Program) (q : RunRequest)
    (unhit : ∀ r e, (q.step (engine.atLevel .strict) p).result = .ok r → r.error = some e →
      e.kind ≠ "dangerous_function") (level : Level) :
    (q.step (engine.atLevel level) p).result = (q.step (engine.atLevel .strict) p).result := by
  have related (store : Store) : RunState.Levels level (Run.first (engine.atLevel .strict) store)
      (Run.first (engine.atLevel level) store) := ⟨rfl, rfl⟩
  have none (b : Breakdown) (hs : (engine.atLevel .strict).storeForRun = .error b) :
      (engine.atLevel level).storeForRun = .error b := hs
  have both := (RunState.mirrors_levels level).request (Q := fun r r' => r' = r) (fun levels => levels.finish)
    (p := p) (q := q) (fun _ _ => rfl) none fun store hs => ⟨store, hs, related store⟩
  rcases both with ⟨store, halt, hs, stopped, pattern, place, rfl⟩ | both
  · -- the error of a hit would be in the strict result
    obtain ⟨r, returned, hit⟩ := RunRequest.result_of_stopped hs stopped
    exact absurd rfl (unhit r _ returned hit)
  · generalize (q.step (engine.atLevel .strict) p).result = x at both
    generalize (q.step (engine.atLevel level) p).result = y at both
    cases both with
    | returned same => rw [same]
    | broken b => rfl

/-- A program that writes texts which come close to a denied word, and leads to another screen. -/
def memo : Program :=
  ⟨"memo", "H",
    [⟨"H", [], [],
      .button "keep" (some ⟨"J", []⟩) none
        [.update "note" (.interpolation [.literal (.text "set the "), .var "note"]) "\"set the $\x7bnote\x7d\""],
      []⟩],
    [⟨"note", .text "attribute"⟩], [], []⟩

/-- A run of this program has the same result at every level. -/
theorem same_at_every_level_memo :
    ∃ r, ((Engine.ofOptions .default).run memo none none).result = .ok r ∧ r.success = true ∧
      r.history.length = 2 ∧ r.navigations = ["J"] ∧
      ∀ level, ((Engine.ofOptions { RunOptions.default with level }).run memo none none).result = .ok r := by
  have told : ((Engine.ofOptions .default).run memo none none).result.toOption.any
      (fun r => r.success && r.history.length == 2 && r.navigations == ["J"]) = true := by
    decide +kernel
  obtain ⟨r, h, told⟩ := EngineStep.exists_result told
  rw [Bool.and_eq_true, Bool.and_eq_true, beq_iff_eq, beq_iff_eq] at told
  obtain ⟨⟨success, changes⟩, left⟩ := told
  refine ⟨r, h, success, changes, left, fun level => ?_⟩
  have same := RunRequest.level_only_matters_for_hits (Engine.ofOptions .default) memo (.run none none)
    (fun r' e hr he => ?_) level
  · rw [← Engine.ofOptions_atLevel .default level]
    exact same.trans h
  · cases h.symm.trans hr
    rw [RunResult.success, he] at success
    cases success

end Screenplay
