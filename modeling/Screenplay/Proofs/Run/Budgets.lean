/-
The memory budget and the data that is kept. The estimate of the memory covers the sizes of all variables, whatever is
overwritten and whatever listeners do, so a run that completes keeps no more than its budget allows. The size of a value
counts the texts that stand in no list; a list it counts by its items, and the texts in it not at all.
-/
import Screenplay.Proofs.Run.Bookkeeping
import Screenplay.Proofs.Run.Work

namespace Screenplay

/-! ## Texts of values -/

namespace Value

mutual

/-- The texts that a value holds: its own, and those of the entries of a map with their names. Lists are looked into
if they are opened. -/
def texts (opened : Bool) : Value → List String
  | .text t => [t]
  | .list items => if opened then textsOfItems opened items else []
  | .map entries => textsOfEntries opened entries
  | .null | .bool _ | .int _ | .float _ => []

/-- The texts of the items of a list. -/
def textsOfItems (opened : Bool) : List Value → List String
  | [] => []
  | v :: vs => texts opened v ++ textsOfItems opened vs

/-- The texts of the entries of a map, with their names. -/
def textsOfEntries (opened : Bool) : List (String × Value) → List String
  | [] => []
  | (k, v) :: es => k :: texts opened v ++ textsOfEntries opened es

end

mutual

/-- The number of items of the lists that stand in no other list. -/
def slots : Value → Nat
  | .list items => items.length
  | .map entries => slotsOfEntries entries
  | .null | .bool _ | .int _ | .float _ | .text _ => 0

/-- The number of items of such lists among the entries of a map. -/
def slotsOfEntries : List (String × Value) → Nat
  | [] => 0
  | (_, v) :: es => slots v + slotsOfEntries es

end

/-- The total length of some texts. -/
def lengthOf (ts : List String) : Nat := total (ts.map String.length)

/-- The total length of the texts that a value holds. -/
def textLength (opened : Bool) (v : Value) : Nat := lengthOf (v.texts opened)

@[simp] theorem lengthOf_nil : lengthOf [] = 0 := rfl

@[simp] theorem lengthOf_cons (t : String) (ts : List String) : lengthOf (t :: ts) = t.length + lengthOf ts := rfl

@[simp] theorem lengthOf_append (ts us : List String) : lengthOf (ts ++ us) = lengthOf ts + lengthOf us := by
  rw [lengthOf, List.map_append, total_append]
  rfl

mutual

/-- The size of a value counts the texts that stand in no list in full, and eight for each item of a list. -/
theorem textLength_le_size : ∀ v : Value, v.textLength false + 8 * v.slots ≤ v.size
  | .text t => by simp [textLength, texts, slots, size]
  | .list items => by simp [textLength, texts, slots, size, Nat.mul_comm]
  | .map entries => textLength_le_sizeEntries entries
  | .null | .bool _ | .int _ | .float _ => by simp [textLength, texts, slots, size]

theorem textLength_le_sizeEntries :
    ∀ es : List (String × Value), lengthOf (textsOfEntries false es) + 8 * slotsOfEntries es ≤ sizeEntries es
  | [] => Nat.le_refl _
  | (k, v) :: es => by
    have first := textLength_le_size v
    have later := textLength_le_sizeEntries es
    rw [textLength] at first
    simp only [textsOfEntries, slotsOfEntries, sizeEntries, List.cons_append, lengthOf_cons, lengthOf_append]
    omega

end

end Value

/-! ## Covered stores -/

/-- Putting a value adds no more than its own size. -/
theorem Entries.total_put_le {α : Type} (size : α → Nat) (entries : Entries α) (name : String) (value : α) :
    total ((entries.put name value).map (size ·.2)) ≤ total (entries.map (size ·.2)) + size value := by
  induction entries with
  | nil => simp [put]
  | cons e rest ih =>
    obtain ⟨n, v⟩ := e
    rw [put]
    split
    · simp only [List.map_cons, total_cons]
      omega
    · simp only [List.map_cons, total_cons]
      omega

namespace Store

/-- The total size of the variables of a store. -/
def load (s : Store) : Nat := total (s.values.map (·.2.size))

/-- A store whose variables are covered by the estimate of the memory. -/
def Covered (s : Store) : Prop := (s.load : Int) ≤ s.memory

variable {s t : Store}

theorem load_commit_le (s : Store) (change : Change) : (s.commit change).load ≤ s.load + change.new.size :=
  Entries.total_put_le Value.size s.values change.name change.new

theorem covered_of_unused (values : s.values = []) (memory : s.memory = 0) : s.Covered := by
  rw [Covered, load, values, memory]
  exact Int.le_refl 0

/-- The value that a change puts is counted in full, also where it takes the place of another one. -/
theorem Covered.commit (h : s.Covered) (change : Change) : (s.commit change).Covered := by
  have kept := s.load_commit_le change
  have counted : (s.commit change).memory = s.memory + change.new.size := rfl
  unfold Covered at h ⊢
  omega

theorem Covered.track (h : s.Covered) (amount : Nat) : (s.track amount).Covered :=
  Int.le_trans h (Int.le_add_of_nonneg_right (Int.natCast_nonneg amount))

/-- A listener that clears the store leaves nothing to be covered. -/
theorem Covered.react {reaction : Reaction} (h : s.Covered) (hr : s.react reaction = .ok t) : t.Covered := by
  cases reaction with
  | write name => cases hr
  | record | cancel | unsubscribe => cases hr; exact h
  | clear => cases hr; exact Int.le_refl 0

theorem Covered.notify (h : s.Covered) (guard : Guard) (change : Change) (heard : List Delivery)
    (listeners : List Listener) : (Store.notify guard change s heard listeners).store.Covered := by
  induction listeners generalizing s heard with
  | nil => exact h
  | cons l later ih =>
    rw [Store.notify]
    split
    · next hr => exact ih (h.react hr) _
    · exact h

theorem Covered.set (h : s.Covered) (guard : Guard) (name : String) (value : Value) :
    (s.set guard name value).store.Covered := by
  unfold Store.set
  rcases guard.check (Check.state name value) with ⟨violation | ⟨⟩, guard⟩
  · exact h
  · exact (h.commit _).notify guard _ _ _

end Store

/-! ## Runs -/

theorem Move.covered {s : RunState} (h : s.store.Covered) (m : Move) : (m.effect s).store.Covered := by
  cases m with
  | status entered =>
    obtain ⟨events, eq⟩ := s.setStatus_eq entered
    rwa [effect, eq]
  | log kind detail => rwa [effect, s.log_store]
  | track amount => exact h.track amount
  | write name value => exact h.set _ name value
  | check | vet | depth | pause | express | record | stop => exact h

namespace Moment

variable {m n : Moment}

theorem Next.covered (next : Next m n) (h : m.state.store.Covered) : n.state.store.Covered := by
  cases next with
  | made => exact Move.covered h _
  | opened => exact h

theorem Reaches.covered (reached : m.Reaches n) (h : m.state.store.Covered) : n.state.store.Covered :=
  reached.keeps (P := (·.state.store.Covered)) (fun _ _ next => next.covered) h

theorem Ends.covered (ends : m.Ends) (h : m.state.store.Covered) : m.outcome.2.store.Covered := by
  cases ends with
  | done => exact h
  | stopped hv =>
    rw [outcome_stopped hv]
    exact Move.covered h _

end Moment

namespace Run

variable {s t : RunState} {p : Program} {name : String}

/-- A run that goes on after a checkpoint is not over. -/
theorem not_over_of_checkpoint {a : Unit} (h : checkpoint s = (.ok a, t)) : ¬ t.Over := by
  intro stopped
  rw [Move.checkpoint_run] at h
  obtain ⟨paused, rfl⟩ := Prod.mk.inj h
  have before : s.Over := Move.over_of_saves (show (Task.move .pause).spends = false from rfl) paused stopped
  obtain ⟨halt, pauses⟩ := Move.paused_of_over before
  rw [pauses] at paused
  cases paused

/-- The last thing that a run does is to pause at a checkpoint. -/
theorem not_over_of_showing {risk : Option Risk} {a : Unit} (h : showing p name risk s = (.ok a, t)) : ¬ t.Over := by
  obtain ⟨screen, u, -, h⟩ := bind_eq_ok h
  obtain ⟨_, v, -, h⟩ := bind_eq_ok h
  exact not_over_of_checkpoint h

theorem not_over_of_handling {handler : String} {a : Unit} (h : handling p name handler s = (.ok a, t)) : ¬ t.Over := by
  obtain ⟨screen, u, -, h⟩ := bind_eq_ok h
  cases found : screen.handler? handler with
  | none =>
    rw [found] at h
    cases h
  | some named =>
    rw [found] at h
    obtain ⟨_, v, -, h⟩ := bind_eq_ok h
    exact not_over_of_checkpoint h

end Run

theorem RunRequest.not_over_of_tasks {p : Program} {q : RunRequest} {s t : RunState}
    (h : Task.runAll (q.tasks p) s = (.ok (), t)) : ¬ t.Over := by
  cases q with
  | run entry risk =>
    rw [tasks, Task.runAll_showing] at h
    exact Run.not_over_of_showing h
  | dispatch screen handler =>
    rw [tasks, Task.runAll_handling] at h
    exact Run.not_over_of_handling h

namespace Engine

/-- An engine whose runs start on an unused store: it has no variables, and no memory has been counted. -/
def StartsUnused (engine : Engine) : Prop :=
  ∀ store, engine.shared = some store → store.values = [] ∧ store.memory = 0

theorem startsUnused_ofOptions (options : RunOptions) : (ofOptions options).StartsUnused := nofun

theorem StartsUnused.storeForRun {engine : Engine} (unused : engine.StartsUnused) {store : Store}
    (h : engine.storeForRun = .ok store) : store.values = [] ∧ store.memory = 0 := by
  rcases storeForRun_eq_ok h with shared | ⟨capacity, rfl⟩
  · exact unused store shared
  · exact ⟨rfl, rfl⟩

/-- The sizes of all variables that a completed run leaves behind are within its budget. -/
theorem load_le_budget {engine : Engine} (unused : engine.StartsUnused) {p : Program} {q : RunRequest} {r : RunResult}
    (h : (q.step engine p).result = .ok r) (completed : r.status = .completed) :
    (total (r.values.map (·.2.size)) : Int) ≤ engine.options.maxMemory := by
  obtain ⟨store, last, error, hs, reached, ends, outcome, rfl, -⟩ := RunRequest.exists_last h
  rw [RunState.finish_eq] at completed ⊢
  cases (RunState.endStatus_completed_iff error).mp completed
  obtain ⟨values, memory⟩ := unused.storeForRun hs
  have first : (q.first engine p store).state.store.Covered := Store.covered_of_unused values memory
  have covered : (last.outcome.2.store.load : Int) ≤ last.outcome.2.store.memory := ends.covered (reached.covered first)
  have lasts := reached.lasts.trans ends.lasts
  -- the last checkpoint was passed, so the budget is kept, and the sizes are covered by what it measures
  have within : ¬ last.outcome.2.Over := by
    refine RunRequest.not_over_of_tasks (p := p) (q := q) (s := Run.first engine store) ?_
    rw [← reached.outcome_eq] at outcome ⊢
    exact Prod.ext outcome rfl
  have options : last.outcome.2.engine.options = engine.options := lasts.options
  have baseline : last.outcome.2.baseline = 0 := lasts.baseline.trans memory
  rw [RunState.Over, options, baseline] at within
  have spent := Int.not_lt.mp (not_or.mp within).2
  show (last.outcome.2.store.load : Int) ≤ engine.options.maxMemory
  omega

/-- The memory budget bounds the texts that are kept outside lists. When a run or the run of a handler on an unused
store completes, the texts of its variables that stand in no list, at every depth of maps and with the names of their
entries, and eight for every item of a list that stands in no other one, are together within the budget, whatever was
overwritten on the way and whoever listens. -/
theorem texts_within_budget {engine : Engine} (unused : engine.StartsUnused) {p : Program} {q : RunRequest}
    {r : RunResult} (h : (q.step engine p).result = .ok r) (completed : r.status = .completed) :
    (total (r.values.map fun e => e.2.textLength false + 8 * e.2.slots) : Int) ≤ engine.options.maxMemory := by
  refine Int.le_trans (Int.ofNat_le.mpr ?_) (load_le_budget unused h completed)
  induction r.values with
  | nil => exact Nat.le_refl _
  | cons e rest ih => exact Nat.add_le_add (Value.textLength_le_size e.2) ih

/-- A program that keeps a text, a list with a text in it, and a map. -/
def shelf : Program :=
  ⟨"shelf", "Home", [⟨"Home", [], [], .container .column [], []⟩],
    [⟨"title", .text "Shelf"⟩, ⟨"books", .list [.text "The Whale"]⟩, ⟨"label", .map [("by", .text "me")]⟩], [], []⟩

/-- An engine with just as much memory as the shelf is estimated to need. -/
def tight : Engine := ofOptions { RunOptions.default with maxMemory := 17 }

/-- The run completes, with more text than the budget has room for. -/
theorem exists_shelved : ∃ r, ((RunRequest.run none none).step tight shelf).result = .ok r ∧
    r.status = .completed ∧ total (r.values.map (·.2.textLength true)) = 18 := by
  have told : ((RunRequest.run none none).step tight shelf).result.toOption.any
      (fun r => r.status = .completed ∧ total (r.values.map (·.2.textLength true)) = 18) = true := by
    decide +kernel
  obtain ⟨r, hr, told⟩ := EngineStep.exists_result told
  exact ⟨r, hr, of_decide_eq_true told⟩

/-- What stands in no list, and the list counted by its items, is within the budget. -/
theorem texts_within_budget_shelf : ∃ r, ((RunRequest.run none none).step tight shelf).result = .ok r ∧
    r.status = .completed ∧
    (total (r.values.map fun e => e.2.textLength false + 8 * e.2.slots) : Int) ≤ tight.options.maxMemory := by
  obtain ⟨r, hr, completed, -⟩ := exists_shelved
  exact ⟨r, hr, completed, texts_within_budget (startsUnused_ofOptions _) hr completed⟩

/-- So the budget does not bound all texts that are kept. -/
theorem not_all_texts_within_budget :
    ¬ ∀ (engine : Engine) (p : Program) (q : RunRequest) (r : RunResult), engine.StartsUnused →
      (q.step engine p).result = .ok r → r.status = .completed →
      (total (r.values.map (·.2.textLength true)) : Int) ≤ engine.options.maxMemory := by
  intro bounded
  obtain ⟨r, hr, completed, kept⟩ := exists_shelved
  have within := bounded tight shelf _ r (startsUnused_ofOptions _) hr completed
  rw [kept] at within
  exact absurd within (by decide)

end Engine

end Screenplay
