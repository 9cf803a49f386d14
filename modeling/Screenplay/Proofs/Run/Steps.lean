/-
The steps of a run: what tracing changes, what becomes of a run that is made of two parts, and what the value
of a part is known to be.
-/
import Screenplay.Run

namespace Screenplay

/-- Tracing an event changes nothing but the trace, if that. -/
theorem RunState.log_eq (s : RunState) (kind : EventKind) (detail : String) :
    ∃ events, s.log kind detail = { s with events } ∧
      ∀ event ∈ events, event ∈ s.events ∨ event = ⟨kind, detail⟩ := by
  unfold RunState.log
  split
  · exact ⟨s.events, rfl, fun _ h => .inl h⟩
  · refine ⟨_, rfl, ?_⟩
    rintro event hm
    exact (List.mem_append.mp hm).imp_right List.mem_singleton.mp

theorem RunState.log_store (s : RunState) (kind : EventKind) (detail : String) :
    (s.log kind detail).store = s.store := by
  obtain ⟨events, eq, -⟩ := s.log_eq kind detail
  rw [eq]

/-- Entering a status changes the status, and traces it. -/
theorem RunState.setStatus_eq (s : RunState) (status : RunStatus) :
    ∃ events, s.setStatus status = { s with events, engine := { s.engine with status } } := by
  obtain ⟨events, eq, -⟩ :=
    RunState.log_eq { s with engine := { s.engine with status } } .statusChanged status.name
  exact ⟨events, eq⟩

namespace Run

variable {α β : Type}

/-! ## Running steps -/

theorem bind_run (m : Run α) (f : α → Run β) (s : RunState) :
    (m >>= f) s =
      match m s with
      | (.ok a, s) => f a s
      | (.error e, s) => (.error e, s) := by
  show (match m s with
    | (r, s) => ExceptT.bindCont f r s) = _
  rcases m s with ⟨_ | _, _⟩ <;> rfl

theorem get_bind_run (f : RunState → Run α) (s : RunState) : (get >>= f) s = f s s := rfl

theorem set_bind_run (f : PUnit → Run α) (s t : RunState) : (set t >>= f) s = f ⟨⟩ t := rfl

/-! ## Results of steps -/

/-- A part of a run that, unless it stops, results in a value with a property. -/
def Yields (m : Run α) (Q : α → Prop) : Prop := ∀ s a, (m s).1 = .ok a → Q a

namespace Yields

variable {Q : α → Prop}

theorem pure {a : α} (h : Q a) : Yields (Pure.pure a) Q := by
  intro s b hb
  cases hb
  exact h

theorem stop (e : RunError) : Yields (stop e) Q := by
  intro s a ha
  cases ha

theorem bind {m : Run β} {f : β → Run α} (h : ∀ b, Yields (f b) Q) : Yields (m >>= f) Q := by
  intro s a ha
  rw [bind_run] at ha
  rcases hr : m s with ⟨e | b, s'⟩
  · rw [hr] at ha; cases ha
  · rw [hr] at ha; exact h b s' a ha

end Yields

end Run

end Screenplay
