/-
Logs of a store. A log has the writes since a store was last cleared, and the memory that has been tracked
besides. A store that is told by it has for every variable the value written last, its variables in the order
of their first writes, the latest changes with the values before them, and the memory of all writes.
-/
import Mathlib.Data.List.DropRight
import Screenplay.Proofs.Store.Writes
import Screenplay.Total

namespace Screenplay

namespace Store

/-! ## Calls -/

/-- A call on a store. -/
inductive Call where
  | set (name : String) (value : Value)
  | track (amount : Int)
  | clear
  | subscribe (reaction : Reaction)
  | unsubscribe (key : Nat)

/-- A store and its guard after a call. -/
def call : Store × Guard → Call → Store × Guard
  | (s, guard), .set name value => ((s.set guard name value).store, (s.set guard name value).guard)
  | (s, guard), .track amount => (s.track amount, guard)
  | (s, guard), .clear => (s.clear, guard)
  | (s, guard), .subscribe reaction => (s.subscribe reaction, guard)
  | (s, guard), .unsubscribe key => (s.unsubscribe key, guard)

/-- A store and its guard after some calls, one after the other. -/
def callAll (s : Store) (guard : Guard) (calls : List Call) : Store × Guard :=
  calls.foldl call (s, guard)

namespace Call

/-- Whether a call clears the store. -/
def clears : Call → Bool
  | .clear => true
  | _ => false

/-- The write of a call that passes a guard. -/
def write? (guard : Guard) : Call → Option (String × Value)
  | .set name value =>
    if (guard.check (Check.state name value)).1 = .ok () then some (name, value) else none
  | .track _ | .clear | .subscribe _ | .unsubscribe _ => none

/-- The amount of memory that a call tracks. -/
def amount : Call → Int
  | .track amount => amount
  | .set .. | .clear | .subscribe _ | .unsubscribe _ => 0

/-- The calls after the last one that clears the store. -/
def sinceClear (calls : List Call) : List Call := calls.rtakeWhile fun c => !c.clears

/-- The writes that pass a guard after the last clearing. -/
def writes (guard : Guard) (calls : List Call) : List (String × Value) :=
  (sinceClear calls).filterMap (write? guard)

/-- The memory that is tracked after the last clearing. -/
def tracked (calls : List Call) : Int := (sinceClear calls).foldl (fun memory c => memory + c.amount) 0

theorem sinceClear_concat {c : Call} (h : c.clears = false) (calls : List Call) :
    sinceClear (calls ++ [c]) = sinceClear calls ++ [c] :=
  List.rtakeWhile_concat_pos _ _ _ (by rw [h, Bool.not_false])

theorem sinceClear_clear (calls : List Call) : sinceClear (calls ++ [clear]) = [] :=
  List.rtakeWhile_concat_neg _ _ _ Bool.false_ne_true

theorem writes_concat {c : Call} (h : c.clears = false) (guard : Guard) (calls : List Call) :
    writes guard (calls ++ [c]) = writes guard calls ++ (c.write? guard).toList := by
  rw [writes, sinceClear_concat h, List.filterMap_append]
  cases hw : c.write? guard <;> simp [writes, hw]

theorem tracked_concat {c : Call} (h : c.clears = false) (calls : List Call) :
    tracked (calls ++ [c]) = tracked calls + c.amount := by
  rw [tracked, sinceClear_concat h, List.foldl_concat]
  rfl

end Call

/-! ## Logs -/

/-- The value that is written last to a variable. -/
def lastWrite? (writes : List (String × Value)) (name : String) : Option Value :=
  Entries.get? writes.reverse name

/-- The changes that writes make, each with the value that its variable had before, null if it had none. -/
def changes (writes : List (String × Value)) : List Change :=
  writes.mapIdx fun i w => ⟨w.1, (lastWrite? (writes.take i) w.1).getD .null, w.2⟩

/-- A store that is told by a log of writes and the memory tracked besides. -/
structure Logged (capacity : Nat) (writes : List (String × Value)) (tracked : Int) (s : Store) : Prop where
  names : s.values.map (·.1) = (writes.map (·.1)).eraseDups
  latest : ∀ name, s.get? name = lastWrite? writes name
  history : s.history = (changes writes).rtake capacity
  memory : s.memory = total (writes.map (·.2.size)) + tracked
  capacity : s.capacity = capacity

theorem lastWrite?_concat (writes : List (String × Value)) (name : String) (value : Value) (other : String) :
    lastWrite? (writes ++ [(name, value)]) other =
      if name = other then some value else lastWrite? writes other := by
  unfold lastWrite? Entries.get?
  rw [List.reverse_concat, List.find?_cons]
  by_cases h : name = other
  · simp [h]
  · simp [h, beq_eq_false_iff_ne.mpr h]

theorem changes_concat (writes : List (String × Value)) (name : String) (value : Value) :
    changes (writes ++ [(name, value)]) =
      changes writes ++ [⟨name, (lastWrite? writes name).getD .null, value⟩] := by
  unfold changes
  rw [List.mapIdx_append, List.mapIdx_singleton, Nat.zero_add, List.take_left]
  congr 1
  refine List.mapIdx_eq_mapIdx_iff.mpr fun i h => ?_
  rw [List.take_append_of_le_length (Nat.le_of_lt h)]

/-- The newest of some things with one more are the newest of all with this one. -/
theorem rtake_rtake_concat {α : Type} (l : List α) (n : Nat) (a : α) :
    (l.rtake n ++ [a]).rtake n = (l ++ [a]).rtake n := by
  cases n with
  | zero => rw [List.rtake_zero, List.rtake_zero]
  | succ n =>
    rw [List.rtake_concat_succ, List.rtake_concat_succ, List.rtake, List.rtake, List.rtake, List.drop_drop,
      List.length_drop]
    congr 2
    omega

/-- The newest of the newest things are the newest of all. -/
theorem rtake_rtake {α : Type} (l : List α) {m n : Nat} (h : m ≤ n) : (l.rtake n).rtake m = l.rtake m := by
  rw [List.rtake, List.rtake, List.rtake, List.drop_drop, List.length_drop]
  congr 1
  omega

namespace Logged

variable {capacity : Nat} {writes : List (String × Value)} {tracked : Int} {s : Store}

/-- A new store has an empty log. -/
theorem empty (capacity : Nat) : Logged capacity [] 0 (empty capacity) :=
  ⟨rfl, fun _ => rfl, (List.rtake_nil _).symm, rfl, rfl⟩

theorem track (h : Logged capacity writes tracked s) (amount : Int) :
    Logged capacity writes (tracked + amount) (s.track amount) := by
  refine ⟨h.names, h.latest, h.history, ?_, h.capacity⟩
  rw [← Int.add_assoc, ← h.memory]
  rfl

/-- Clearing empties the log. -/
theorem clear (h : Logged capacity writes tracked s) : Logged capacity [] 0 s.clear :=
  ⟨rfl, fun _ => rfl, (List.rtake_nil _).symm, rfl, h.capacity⟩

/-- The listeners do not show in the log. -/
theorem subscribe (h : Logged capacity writes tracked s) (reaction : Reaction) :
    Logged capacity writes tracked (s.subscribe reaction) :=
  ⟨h.names, h.latest, h.history, h.memory, h.capacity⟩

theorem unsubscribe (h : Logged capacity writes tracked s) (key : Nat) :
    Logged capacity writes tracked (s.unsubscribe key) :=
  ⟨h.names, h.latest, h.history, h.memory, h.capacity⟩

/-- A change puts a write into the log. -/
theorem commit (h : Logged capacity writes tracked s) (name : String) (value : Value) :
    Logged capacity (writes ++ [(name, value)]) tracked (s.commit (s.changeTo name value)) := by
  refine ⟨?_, fun other => ?_, ?_, ?_, h.capacity⟩
  · have known : s.values.has name = true ↔ name ∈ writes.map (·.1) := by
      rw [← List.mem_eraseDups, ← h.names]
      simp [Entries.has]
    have names := Entries.names_put s.values name value
    rw [h.names] at names
    rw [List.map_append, List.eraseDups_append]
    -- a variable that is known keeps its place, a new one comes last
    refine names.trans ?_
    split
    · next hn => simp [List.removeAll, known.mp hn]
    · next hn => simp [List.removeAll, mt known.mpr hn, List.eraseDups_cons]
  · rw [lastWrite?_concat, ← h.latest]
    split
    · next he => exact he ▸ Entries.get?_put_self s.values name value
    · next hn => exact Entries.get?_put_of_ne s.values value (Ne.symm hn)
  · have latest : s.changeTo name value = ⟨name, (lastWrite? writes name).getD .null, value⟩ := by
      rw [changeTo, h.latest]
    rw [changes_concat, ← latest, ← rtake_rtake_concat, ← h.history, ← h.capacity, List.rtake,
      List.length_append]
    rfl
  · show s.memory + value.size = _
    rw [h.memory, List.map_append, total_append]
    simp
    omega

end Logged

/-! ## Guards -/

/-- Whether a write passes a guard depends on the policy only. -/
theorem Call.write?_congr {guard other : Guard} (h : other.policy = guard.policy) :
    Call.write? other = Call.write? guard := by
  funext c
  cases c <;> simp only [write?, Guard.check_ok_iff, h]

end Store

end Screenplay
