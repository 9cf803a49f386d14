/-
The state in which a screen is shown first. All variables stand in one store, which the variables of the program
enter before those of the screen; one that has a value keeps it. So on a store without variables a variable of the
screen starts with the value that the screen declares for it, unless the program declares a variable of this name.
-/
import Screenplay.Proofs.Program.References
import Screenplay.Proofs.Run.Refusals
import Screenplay.Proofs.Run.Work

namespace Screenplay

/-! ## Declared values -/

/-- The value that some declarations have for a name: that of the first one of this name. -/
def declared? (vs : List StateVar) (name : String) : Option Value := (vs.find? (·.name == name)).map (·.value)

theorem declared?_cons_self (v : StateVar) (vs : List StateVar) : declared? (v :: vs) v.name = some v.value := by
  rw [declared?, List.find?_cons_of_pos (by exact beq_self_eq_true _)]
  rfl

theorem declared?_cons_of_ne {v : StateVar} {name : String} (vs : List StateVar) (h : v.name ≠ name) :
    declared? (v :: vs) name = declared? vs name := by
  rw [declared?, List.find?_cons_of_neg (by simpa using h), declared?]

theorem declared?_append (vs ws : List StateVar) (name : String) :
    declared? (vs ++ ws) name = (declared? vs name).or (declared? ws name) := by
  rw [declared?, List.find?_append, Option.map_or, declared?, declared?]

/-- Declarations of different names are all found. -/
theorem declared?_of_mem {vs : List StateVar} (distinct : (vs.map (·.name)).Nodup) {v : StateVar} (hv : v ∈ vs) :
    declared? vs v.name = some v.value := by
  induction vs with
  | nil => cases hv
  | cons w vs ih =>
    rw [List.map_cons, List.nodup_cons] at distinct
    obtain ⟨new, distinct⟩ := distinct
    rcases List.mem_cons.mp hv with rfl | hm
    · exact declared?_cons_self v vs
    · have other : w.name ≠ v.name := fun same => new (same ▸ List.mem_map_of_mem hm)
      rw [declared?_cons_of_ne vs other]
      exact ih distinct hm

/-! ## Writing what is missing -/

theorem Store.has_eq_isSome (s : Store) (name : String) : s.has name = (s.get? name).isSome := by
  rw [Store.has, Entries.has, Store.get?, Entries.get?, Option.isSome_map, List.isSome_find?]

namespace Run

variable {s t : RunState} {p : Program} {name : String} {risk : Option Risk} {entered : Screen}

/-- Where a part of a run goes on, what it settles for holds. -/
theorem Settles.of_eq_ok {α : Type} {m : Run α} {Q : RunState → Prop} {a : α}
    (h : Settles (fun _ => True) m s Q) (eq : m s = (.ok a, t)) : Q t := by
  rcases h with ⟨b, u, run, hq⟩ | ⟨e, u, run, -⟩
  · rw [eq] at run
    cases run
    exact hq
  · rw [eq] at run
    cases run

/-- A state after some declarations: without listeners, the variables that had a value have it still, and the
declared ones have got one. -/
structure Seeded (vs : List StateVar) (s t : RunState) : Prop where
  quiet : t.store.listeners = []
  get? : ∀ name, t.store.get? name = (s.store.get? name).or (declared? vs name)

theorem Seeded.of_store_eq (quiet : s.store.listeners = []) (h : t.store = s.store) : Seeded [] s t := by
  constructor
  · rw [h, quiet]
  · intro name
    rw [h]
    exact Option.or_none.symm

/-- Declarations one after the other. -/
theorem Seeded.trans {vs ws : List StateVar} {u : RunState} (h : Seeded vs s t) (g : Seeded ws t u) :
    Seeded (vs ++ ws) s u := by
  refine ⟨g.quiet, fun name => ?_⟩
  rw [g.get?, h.get?, declared?_append, Option.or_assoc]

/-- A variable that has no value is written. -/
theorem seeded_of_writeMissing (quiet : s.store.listeners = []) {v : StateVar} {a : Unit}
    (h : writeMissing v.name v.value s = (.ok a, t)) : Seeded [v] s t := by
  rw [writeMissing, get_bind_run, Store.has_eq_isSome] at h
  cases hk : s.store.get? v.name with
  | some old =>
    rw [hk] at h
    cases h
    refine ⟨quiet, fun name => ?_⟩
    -- a variable with a value keeps it, whatever is declared
    by_cases same : v.name = name
    · rw [← same, hk]
      rfl
    · rw [declared?_cons_of_ne [] same]
      exact Option.or_none.symm
  | none =>
    rw [hk] at h
    have written : write v.name v.value s = (.ok a, t) := h
    obtain ⟨u, run | ⟨b, run, -⟩, -, store⟩ | ⟨halt, u, run, -⟩ := settles_write quiet v fun _ _ => trivial
    · rw [written] at run
      cases run
      constructor
      · rw [store]
        exact quiet
      · intro name
        rw [store]
        by_cases same : v.name = name
        · rw [← same, hk, declared?_cons_self]
          exact Entries.get?_put_self ..
        · rw [declared?_cons_of_ne [] same]
          exact (Entries.get?_put_of_ne _ _ (Ne.symm same)).trans Option.or_none.symm
    · rw [written] at run
      cases run
    · rw [written] at run
      cases run

/-- All declared variables that have no value are written, the first one of each name. -/
theorem seeded_of_seed (quiet : s.store.listeners = []) {vs : List StateVar} {a : Unit}
    (h : seed vs s = (.ok a, t)) : Seeded vs s t := by
  induction vs generalizing s with
  | nil =>
    cases h
    exact .of_store_eq quiet rfl
  | cons v vs ih =>
    rw [seed] at h
    obtain ⟨_, u, first, rest⟩ := bind_eq_ok h
    have here := seeded_of_writeMissing quiet first
    exact here.trans (ih here.quiet rest)

/-! ## The start of a run -/

/-- A screen that is entered is the one that is found, and its variables are seeded. -/
theorem seeded_of_enterScreen (quiet : s.store.listeners = []) (h : enterScreen p name s = (.ok entered, t)) :
    p.screen? name = some entered ∧ Seeded entered.state s t := by
  unfold enterScreen at h
  cases found : p.screen? name with
  | none =>
    rw [found] at h
    cases h
  | some screen =>
    rw [found] at h
    replace h : (do settle (s.engine.guard.checkScreen screen); seed screen.state; return screen) s
        = (.ok entered, t) := h
    obtain ⟨_, u, vetted, h⟩ := bind_eq_ok h
    obtain ⟨_, v, seeded, h⟩ := bind_eq_ok h
    cases h
    have same := (settles_settle s (s.engine.guard.checkScreen_policy entered)).of_eq_ok vetted
    have checked := Seeded.of_store_eq quiet same.2
    exact ⟨rfl, checked.trans (seeded_of_seed checked.quiet seeded)⟩

/-- When a run has started, the variables of the program are seeded, and then those of the screen. -/
theorem seeded_of_start (quiet : s.store.listeners = []) (h : start p name risk s = (.ok entered, t)) :
    p.screen? name = some entered ∧ Seeded (p.state ++ entered.state) s t := by
  unfold start at h
  obtain ⟨_, s₁, initializing, h⟩ := bind_eq_ok h
  obtain ⟨_, s₂, accepted, h⟩ := bind_eq_ok h
  obtain ⟨_, s₃, seeded, h⟩ := bind_eq_ok h
  obtain ⟨_, s₄, running, h⟩ := bind_eq_ok h
  have b₁ := Seeded.of_store_eq quiet ((settles_setStatus .initializing s).of_eq_ok initializing).2
  have b₂ := Seeded.of_store_eq b₁.quiet ((settles_accept s₁ p risk).of_eq_ok accepted).2
  have b₃ := seeded_of_seed b₂.quiet seeded
  have b₄ := Seeded.of_store_eq b₃.quiet ((settles_setStatus .running s₃).of_eq_ok running).2
  obtain ⟨found, b₅⟩ := seeded_of_enterScreen b₄.quiet h
  have all := (((b₁.trans b₂).trans b₃).trans b₄).trans b₅
  rw [List.nil_append, List.nil_append, List.append_nil] at all
  exact ⟨found, all⟩

/-- In a program without reference errors, on a store without variables and listeners: when the walk over the tree
of the entry screen starts, each variable that the screen declares holds the value that the screen declares for
it, unless the program itself declares a variable of this name; then it holds the first value declared there. -/
theorem seeded_when_walk_starts (consistent : p.referenceErrors = .ok []) {engine : Engine} {store : Store}
    (fresh : store.values = []) (quiet : store.listeners = [])
    (started : start p name risk (first engine store) = (.ok entered, s)) :
    showing p name risk (first engine store) = (do walk entered 1 true entered.ui; checkpoint) s ∧
      p.screen? name = some entered ∧
      ∀ v ∈ entered.state, s.store.get? v.name = some ((declared? p.state v.name).getD v.value) := by
  obtain ⟨found, seeded⟩ := seeded_of_start (s := first engine store) quiet started
  refine ⟨?_, found, ?_⟩
  · rw [showing, bind_run, started]
  · intro v hv
    have distinct : (entered.state.map (·.name)).Nodup :=
      (Program.consistent_of_referenceErrors consistent).state entered (List.mem_of_find?_eq_some found)
    have empty : (first engine store).store.get? v.name = none := by
      show store.get? v.name = none
      rw [Store.get?, fresh]
      rfl
    rw [seeded.get?, empty, Option.none_or, declared?_append, declared?_of_mem distinct hv]
    cases declared? p.state v.name <;> rfl

/-- A program that declares a variable of its start screen, too, and with another value. -/
def doubled : Program :=
  ⟨"doubled", "Home", [⟨"Home", [], [⟨"x", .int 2⟩, ⟨"y", .int 3⟩], .container .column [], []⟩],
    [⟨"x", .int 1⟩], [], []⟩

/-- A state in which no variable has a value yet. -/
def unseeded : RunState := first (Engine.ofOptions .default) (.empty 10)

/-- Its run on this state comes to the walk. -/
theorem exists_started_doubled :
    ∃ entered s, start doubled "Home" none unseeded = (.ok entered, s) ∧
      entered.state = [⟨"x", .int 2⟩, ⟨"y", .int 3⟩] := by
  have started : (start doubled "Home" none unseeded).1.toOption.isSome = true := by decide +kernel
  rcases run : start doubled "Home" none unseeded with ⟨e | entered, s⟩
  · rw [run] at started
    cases started
  · refine ⟨entered, s, rfl, ?_⟩
    obtain ⟨found, -⟩ := seeded_of_start (s := unseeded) rfl run
    cases found
    rfl

/-- The walk starts with the value of the program for the one variable, and with that of the screen for the other. -/
theorem seeded_when_walk_starts_doubled :
    ∃ entered s, start doubled "Home" none unseeded = (.ok entered, s) ∧
      s.store.get? "x" = some (.int 1) ∧ s.store.get? "y" = some (.int 3) := by
  obtain ⟨entered, s, started, state⟩ := exists_started_doubled
  have consistent : doubled.referenceErrors = .ok [] := by decide +kernel
  obtain ⟨-, -, seeded⟩ := seeded_when_walk_starts consistent (by rfl) (by rfl) started
  rw [state] at seeded
  exact ⟨entered, s, started, seeded ⟨"x", .int 2⟩ (by simp), seeded ⟨"y", .int 3⟩ (by simp)⟩

/-- So a variable of a screen does not always start with the value that the screen declares for it. -/
theorem not_started_with_declared :
    ¬ ∀ (p : Program) (engine : Engine) (store : Store) (name : String) (entered : Screen) (s : RunState),
      p.referenceErrors = .ok [] → store.values = [] → store.listeners = [] →
      start p name none (first engine store) = (.ok entered, s) →
      ∀ v ∈ entered.state, s.store.get? v.name = some v.value := by
  intro all
  obtain ⟨entered, s, started, state⟩ := exists_started_doubled
  have seeded := (seeded_of_start (s := unseeded) rfl started).2.get? "x"
  have declared := all doubled _ (.empty 10) "Home" entered s (by decide +kernel) rfl rfl started ⟨"x", .int 2⟩
    (by rw [state]; exact List.mem_cons_self)
  rw [seeded] at declared
  cases declared

end Run

end Screenplay
