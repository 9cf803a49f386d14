/-
When the records of a run are made. Every navigation of a result was recorded at a moment of the run at which
those before it in the result had been recorded, and no others; the same holds of every event that does not
only tell of the end. So what is told of the state at such a moment is told of the one in which the record was
made.
-/
import Screenplay.Proofs.Run.Moments

namespace Screenplay

namespace Moment

variable {α : Type} {trace : RunState → List α} {adds : Move → α → Prop} {first m : Moment}

/-- What a trace holds at some moment was added to it at one before. -/
theorem Reaches.exists_added
    (step : ∀ move s, trace (move.effect s) = trace s ∨ ∃ a, adds move a ∧ trace (move.effect s) = trace s ++ [a])
    (empty : trace first.state = []) (h : first.Reaches m) {i : Nat} {a : α} (hi : (trace m.state)[i]? = some a) :
    ∃ move left s, first.Reaches ⟨.move move :: left, s⟩ ∧ adds move a ∧ trace s = (trace m.state).take i := by
  induction h with
  | refl =>
    rw [empty] at hi
    cases hi
  | tail before next ih =>
    cases next with
    | opened => exact ih hi
    | @made move left s hv =>
      rcases step move s with same | ⟨b, added, eq⟩
      · rw [same] at hi ⊢
        exact ih hi
      · rw [eq] at hi ⊢
        by_cases earlier : i < (trace s).length
        · rw [List.getElem?_append_left earlier] at hi
          rw [List.take_append_of_le_length (Nat.le_of_lt earlier)]
          exact ih hi
        · -- what is found behind the old trace is what the move has added
          obtain ⟨rfl, rfl⟩ : i = (trace s).length ∧ b = a := by
            have inside := (List.getElem?_eq_some_iff.mp hi).1
            rw [List.length_append, List.length_singleton] at inside
            obtain rfl : i = (trace s).length := by omega
            simpa using hi
          exact ⟨move, left, s, before, added, by simp⟩

/-- So was what a trace holds when the run has ended, even if the last move stops the run. -/
theorem Ends.exists_added
    (step : ∀ move s, trace (move.effect s) = trace s ∨ ∃ a, adds move a ∧ trace (move.effect s) = trace s ++ [a])
    (silent : ∀ (move : Move) s halt, move.verdict s = .error halt → trace (move.effect s) = trace s)
    (empty : trace first.state = []) (h : first.Reaches m) (ends : m.Ends) {i : Nat} {a : α}
    (hi : (trace m.outcome.2)[i]? = some a) :
    ∃ move left s, first.Reaches ⟨.move move :: left, s⟩ ∧ adds move a ∧
      trace s = (trace m.outcome.2).take i := by
  have last : trace m.outcome.2 = trace m.state := by
    cases ends with
    | done => rfl
    | stopped hv =>
      rw [outcome_stopped hv]
      exact silent _ _ _ hv
  rw [last] at hi ⊢
  exact h.exists_added step empty hi

end Moment

namespace Move

/-- Only a record adds to the navigations. -/
theorem navigations_effect (m : Move) (s : RunState) :
    (m.effect s).navigations = s.navigations ∨
      ∃ target, (∃ n : Navigation, m = .record n ∧ n.target = target) ∧
        (m.effect s).navigations = s.navigations ++ [target] := by
  cases m with
  | record n => exact .inr ⟨n.target, ⟨n, rfl, rfl⟩, rfl⟩
  | status entered =>
    obtain ⟨events, eq⟩ := s.setStatus_eq entered
    rw [effect, eq]
    exact .inl rfl
  | log kind detail =>
    obtain ⟨events, eq, -⟩ := s.log_eq kind detail
    rw [effect, eq]
    exact .inl rfl
  | check | vet | depth | track | pause | express | write | stop => exact .inl rfl

/-- Only what is logged adds to the trace, and a status that is entered. -/
theorem events_effect (m : Move) (s : RunState) :
    (m.effect s).events = s.events ∨
      ∃ event, (event.kind = .statusChanged ∨ m = .log event.kind event.detail) ∧
        (m.effect s).events = s.events ++ [event] := by
  have logged (t : RunState) (kind : EventKind) (detail : String) :
      (t.log kind detail).events = t.events ∨ (t.log kind detail).events = t.events ++ [⟨kind, detail⟩] := by
    unfold RunState.log
    split
    · exact .inl rfl
    · exact .inr rfl
  cases m with
  | log kind detail => exact (logged s kind detail).imp_right fun eq => ⟨⟨kind, detail⟩, .inr rfl, eq⟩
  | status entered =>
    exact (logged { s with engine := { s.engine with status := entered } } _ _).imp_right fun eq =>
      ⟨⟨.statusChanged, entered.name⟩, .inl rfl, eq⟩
  | check | vet | depth | track | pause | express | record | write | stop => exact .inl rfl

/-- A move that stops the run records nothing. -/
theorem effect_of_stopped {m : Move} {s : RunState} {halt : Halt} (h : m.verdict s = .error halt) :
    (m.effect s).navigations = s.navigations ∧ (m.effect s).events = s.events := by
  cases m with
  | status | log | track | record => cases h
  | check | vet | depth | pause | express | write | stop => exact ⟨rfl, rfl⟩

end Move

/-! ## Results -/

namespace RunRequest

variable {engine : Engine} {p : Program} {q : RunRequest} {store : Store} {last : Moment}

/-- Every navigation of a result was recorded when those before it had been. -/
theorem exists_recorded (reached : (q.first engine p store).Reaches last) (ends : last.Ends)
    (error : Option RunError) {i : Nat} {target : String}
    (hi : (last.outcome.2.finish error).1.navigations[i]? = some target) :
    ∃ n left s, (q.first engine p store).Reaches ⟨.move (.record n) :: left, s⟩ ∧ n.target = target ∧
      s.navigations = (last.outcome.2.finish error).1.navigations.take i := by
  rw [(RunState.finish_tells _ _).navigations] at hi ⊢
  obtain ⟨_, left, s, made, ⟨n, rfl, rfl⟩, before⟩ := ends.exists_added Move.navigations_effect
    (fun _ _ _ hv => (Move.effect_of_stopped hv).1) rfl reached hi
  exact ⟨n, left, s, made, rfl, before⟩

/-- Every event of a result, unless it tells of its end or of a status, was logged when those before it had
been. -/
theorem exists_logged (reached : (q.first engine p store).Reaches last) (ends : last.Ends)
    (error : Option RunError) {i : Nat} {event : Event} (inner : event.kind ∉ closingKinds)
    (hi : (last.outcome.2.finish error).1.events[i]? = some event) :
    ∃ left s, (q.first engine p store).Reaches ⟨.move (.log event.kind event.detail) :: left, s⟩ ∧
      s.events = (last.outcome.2.finish error).1.events.take i := by
  obtain ⟨later, eq, closing⟩ := (RunState.finish_adds last.outcome.2 error).events
  have events : (last.outcome.2.finish error).1.events = last.outcome.2.events ++ later := eq
  rw [events] at hi ⊢
  -- what stands behind the trace of the run tells of its end
  have inside : i < last.outcome.2.events.length := by
    refine Nat.lt_of_not_le fun beyond => ?_
    rw [List.getElem?_append_right beyond] at hi
    exact inner (closing event (List.mem_of_getElem? hi))
  rw [List.getElem?_append_left inside] at hi
  rw [List.take_append_of_le_length (Nat.le_of_lt inside)]
  obtain ⟨move, left, s, made, status | rfl, before⟩ := ends.exists_added Move.events_effect
    (fun _ _ _ hv => (Move.effect_of_stopped hv).2) rfl reached hi
  · exact absurd (by rw [status]; decide) inner
  · exact ⟨left, s, made, before⟩

end RunRequest

end Screenplay
