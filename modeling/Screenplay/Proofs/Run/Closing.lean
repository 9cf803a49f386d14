/-
The end of a run, told exactly. What is traced stands after the trace as far as there is room for it, so the
result of a run is that of its last state with the closing events: the hits that were let through, the error and
the status. The engine has forgotten the hits, has entered the status and has counted the run.
-/
import Screenplay.Proofs.Run.Steps

namespace Screenplay.RunState

/-! ## Room in the trace -/

/-- The trace with some events more, as far as there is room for them. -/
def traceWith (s : RunState) (more : List Event) : List Event :=
  s.events ++ more.take (s.engine.options.maxEvents.toNat - s.events.length)

/-- A state that has traced some events more. -/
def traced (s : RunState) (more : List Event) : RunState := { s with events := s.traceWith more }

theorem length_traceWith_le (s : RunState) (more : List Event) :
    (s.traceWith more).length ≤ s.events.length + more.length := by
  rw [traceWith, List.length_append]
  exact Nat.add_le_add_left (List.length_take_le' ..) _

/-- What there is room for is traced. -/
theorem traceWith_of_room {s : RunState} {more : List Event}
    (h : s.events.length + more.length ≤ s.engine.options.maxEvents.toNat) : s.traceWith more = s.events ++ more := by
  rw [traceWith, List.take_of_length_le (by omega)]

/-- A trace that does not fill its room has lost nothing. -/
theorem room_of_traceWith {s : RunState} {more : List Event}
    (h : (s.traceWith more).length < s.engine.options.maxEvents.toNat) :
    s.events.length + more.length < s.engine.options.maxEvents.toNat := by
  rw [traceWith, List.length_append, List.length_take] at h
  omega

theorem log_eq_traced (s : RunState) (kind : EventKind) (detail : String) :
    s.log kind detail = s.traced [⟨kind, detail⟩] := by
  unfold log traced traceWith
  split
  · next full =>
    rw [show s.engine.options.maxEvents.toNat - s.events.length = 0 by omega, List.take_zero, List.append_nil]
  · next room =>
    rw [List.take_of_length_le (by rw [List.length_singleton]; omega)]

theorem traced_nil (s : RunState) : s.traced [] = s := by
  rw [traced, traceWith, List.take_nil, List.append_nil]

/-- Events that are traced one after the other are traced together. -/
theorem traced_traced (s : RunState) (first second : List Event) :
    (s.traced first).traced second = s.traced (first ++ second) := by
  have room (n : Nat) : n - min n first.length = n - first.length := by omega
  simp only [traced, traceWith, List.append_assoc, List.take_append, List.length_append, List.length_take,
    Nat.sub_add_eq, room]

theorem foldl_log (s : RunState) (hits : List Hit) :
    hits.foldl (fun s hit => s.log .securityWarning hit.text) s =
      s.traced (hits.map fun hit => ⟨.securityWarning, hit.text⟩) := by
  induction hits generalizing s with
  | nil => exact s.traced_nil.symm
  | cons hit hits ih => rw [List.foldl_cons, ih, log_eq_traced, traced_traced, List.map_cons, List.singleton_append]

/-! ## Closing -/

/-- The status in which a run ends with an error or without one. -/
def endStatus (error : Option RunError) : RunStatus := (error.map RunError.status).getD .completed

/-- The events that close the trace of a run. -/
def closingEvents (s : RunState) (error : Option RunError) : List Event :=
  s.engine.guard.hits.map (fun hit => ⟨.securityWarning, hit.text⟩)
    ++ error.toList.map (fun e => ⟨.error, e.message⟩)
    ++ [⟨.statusChanged, (endStatus error).name⟩]

theorem logHits_eq_traced (s : RunState) :
    s.logHits =
      { s.traced (s.engine.guard.hits.map fun hit => ⟨.securityWarning, hit.text⟩) with
        engine := { s.engine with guard := { s.engine.guard with hits := [] } } } := by
  rw [logHits, foldl_log]
  rfl

theorem logError_eq_traced (s : RunState) (error : Option RunError) :
    s.logError error = s.traced (error.toList.map fun e => ⟨.error, e.message⟩) := by
  cases error with
  | none => exact s.traced_nil.symm
  | some e => exact s.log_eq_traced .error e.message

theorem setStatus_eq_traced (s : RunState) (status : RunStatus) :
    s.setStatus status =
      { s.traced [⟨.statusChanged, status.name⟩] with engine := { s.engine with status } } := by
  rw [setStatus, log_eq_traced]
  rfl

/-- What the end of a run changes: the trace, the hits that the guard has noted, and the status. -/
theorem closed_eq (s : RunState) (error : Option RunError) :
    (s.logHits.logError error).setStatus (endStatus error) =
      { s.traced (s.closingEvents error) with
        engine := { s.engine with guard := { s.engine.guard with hits := [] }, status := endStatus error } } := by
  rw [closingEvents, ← traced_traced, ← traced_traced, setStatus_eq_traced, logError_eq_traced,
    logHits_eq_traced]
  -- the changes of the engine leave the room in the trace as it is
  rfl

/-- The end of a run: its result, and the engine that has counted it. -/
theorem finish_eq (s : RunState) (error : Option RunError) :
    s.finish error =
      (⟨endStatus error, s.store.values, s.store.memory - s.baseline, s.traceWith (s.closingEvents error),
          s.store.history, s.navigations, error, s.engine.guard.hits⟩,
        { s.traced (s.closingEvents error) with
          engine := { s.engine with
            guard := { s.engine.guard with hits := [] }
            status := endStatus error
            statistics := s.engine.statistics.count (endStatus error) error.isNone s.store } }) := by
  unfold finish
  dsimp only
  rw [show (error.map RunError.status).getD .completed = endStatus error from rfl, closed_eq]
  rfl

end Screenplay.RunState
