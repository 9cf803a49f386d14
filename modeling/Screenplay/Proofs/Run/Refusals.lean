/-
Programs and screens that are refused. A program that is refused, for its risk or by the guard, leaves the shared
store as it is. If its screen is missing or refused, all that is left behind are the values of declared variables
that had none; the run fails then, unless it breaks off before because such a value cannot be written out.
-/
import Screenplay.Proofs.Program.Trees
import Screenplay.Proofs.Run.Closing
import Screenplay.Proofs.Run.Moments
import Screenplay.Proofs.Store.Writes

namespace Screenplay

/-! ## Verdicts of guards -/

namespace Guard

/-- A screen passes a guard exactly if its checks pass the policy that is enforced, and its tree is no higher and
no larger than the ceilings allow. -/
theorem checkScreen_eq_ok {guard : Guard} {screen : Screen} :
    (guard.checkScreen screen).1 = .ok () ↔
      (∀ c ∈ screen.checks, c.Passes guard.policy.enforced) ∧
        screen.ui.height ≤ maxDepth ∧ screen.ui.size ≤ guard.policy.maxElements := by
  have kept := guard.check_policy screen.checks
  have checked : (guard.check screen.checks).1 = .ok () ↔ _ := check_eq_ok
  unfold checkScreen
  rcases hc : guard.check screen.checks with ⟨violation | ⟨⟩, after⟩
  · rw [hc] at checked
    refine iff_of_false (by rintro ⟨⟩) fun h => ?_
    cases checked.mpr h.1
  · rw [hc] at checked kept
    rw [checkTree_eq_ok, kept]
    exact ⟨fun h => ⟨checked.mp rfl, h⟩, fun h => h.2⟩

end Guard

/-! ## Writes that nobody hears of -/

namespace Store

variable {s : Store} {vs ws : List StateVar}

/-- A store after some declared variables are written. -/
def assign (s : Store) (vs : List StateVar) : Store :=
  vs.foldl (fun s v => s.commit (s.changeTo v.name v.value)) s

/-- Declared variables of different names, none of which has a value in a store. -/
structure Lacks (s : Store) (vs : List StateVar) : Prop where
  absent : ∀ v ∈ vs, s.has v.name = false
  distinct : (vs.map (·.name)).Nodup

theorem assign_append (s : Store) (vs ws : List StateVar) : s.assign (vs ++ ws) = (s.assign vs).assign ws :=
  List.foldl_append

theorem assign_listeners (s : Store) (vs : List StateVar) : (s.assign vs).listeners = s.listeners := by
  induction vs generalizing s with
  | nil => rfl
  | cons v vs ih => exact ih _

theorem has_assign (s : Store) (vs : List StateVar) (name : String) :
    (s.assign vs).has name = (s.has name || vs.any (·.name == name)) := by
  induction vs generalizing s with
  | nil => exact (Bool.or_false _).symm
  | cons v vs ih =>
    show ((s.commit (s.changeTo v.name v.value)).assign vs).has name = _
    rw [ih, has_commit, List.any_cons, Bool.or_assoc]
    rfl

theorem Lacks.nil (s : Store) : s.Lacks [] := ⟨List.forall_mem_nil _, List.nodup_nil⟩

/-- What has no value after some variables are written had none before, and is none of them. -/
theorem Lacks.append (h : s.Lacks vs) (g : (s.assign vs).Lacks ws) : s.Lacks (vs ++ ws) := by
  have still : ∀ w ∈ ws, s.has w.name = false ∧ ∀ v ∈ vs, v.name ≠ w.name := by
    intro w hw
    have absent := g.absent w hw
    rw [has_assign, Bool.or_eq_false_iff, List.any_eq_false] at absent
    refine ⟨absent.1, fun v hv same => absent.2 v hv ?_⟩
    rw [same]
    exact beq_self_eq_true _
  constructor
  · rw [List.forall_mem_append]
    exact ⟨h.absent, fun w hw => (still w hw).1⟩
  · rw [List.map_append, List.nodup_append]
    refine ⟨h.distinct, g.distinct, ?_⟩
    rintro a ha b hb rfl
    obtain ⟨v, hv, rfl⟩ := List.mem_map.mp ha
    obtain ⟨w, hw, same⟩ := List.mem_map.mp hb
    exact (still w hw).2 v hv same.symm

end Store

/-! ## Refusals -/

/-- What the beginning of a run leaves as it is: the store that is shared, the options and the surroundings, the
policy of the guard and the navigations. -/
structure RunState.Steady (s t : RunState) : Prop where
  shared : t.engine.shared = s.engine.shared
  around : t.engine.around = s.engine.around
  options : t.engine.options = s.engine.options
  policy : t.engine.guard.policy = s.engine.guard.policy
  navigations : t.navigations = s.navigations

namespace RunState.Steady

variable {s t u : RunState}

theorem refl (s : RunState) : s.Steady s := ⟨rfl, rfl, rfl, rfl, rfl⟩

theorem trans (h : s.Steady t) (g : t.Steady u) : s.Steady u :=
  ⟨g.shared.trans h.shared, g.around.trans h.around, g.options.trans h.options, g.policy.trans h.policy,
    g.navigations.trans h.navigations⟩

theorem log (s : RunState) (kind : EventKind) (detail : String) : s.Steady (s.log kind detail) := by
  obtain ⟨events, eq, -⟩ := s.log_eq kind detail
  rw [eq]
  exact ⟨rfl, rfl, rfl, rfl, rfl⟩

theorem setStatus (s : RunState) (status : RunStatus) : s.Steady (s.setStatus status) := by
  obtain ⟨events, eq⟩ := s.setStatus_eq status
  rw [eq]
  exact ⟨rfl, rfl, rfl, rfl, rfl⟩

/-- Turning to the surroundings is none of it. -/
theorem outside (s : RunState) : s.Steady { s with engine := s.engine.contact } := ⟨rfl, rfl, rfl, rfl, rfl⟩

end RunState.Steady

/-- A failure, or a breakdown of some sort. -/
def Halt.Fails (breaks : Breakdown → Prop) : Halt → Prop
  | .error e => e.status = .failed
  | .breakdown b => breaks b

namespace Run

variable {α β : Type} {s t : RunState} {breaks : Breakdown → Prop} {Q R : RunState → Prop}

/-- A part of a run that fails or breaks off, in a state with a property. -/
def Fails (breaks : Breakdown → Prop) (m : Run α) (s : RunState) (Q : RunState → Prop) : Prop :=
  ∃ halt t, m s = (.error halt, t) ∧ halt.Fails breaks ∧ Q t

/-- A part of a run that goes on, or fails or breaks off, in a state with a property. -/
def Settles (breaks : Breakdown → Prop) (m : Run α) (s : RunState) (Q : RunState → Prop) : Prop :=
  (∃ a t, m s = (.ok a, t) ∧ Q t) ∨ Fails breaks m s Q

theorem Fails.mono {m : Run α} (h : Fails breaks m s Q) (le : ∀ t, Q t → R t) : Fails breaks m s R := by
  obtain ⟨e, t, eq, failed, hq⟩ := h
  exact ⟨e, t, eq, failed, le t hq⟩

theorem Settles.mono {m : Run α} (h : Settles breaks m s Q) (le : ∀ t, Q t → R t) : Settles breaks m s R := by
  obtain ⟨a, t, eq, hq⟩ | failed := h
  · exact .inl ⟨a, t, eq, le t hq⟩
  · exact .inr (failed.mono le)

/-- What follows a failure is not done. -/
theorem Fails.bind {m : Run α} (h : Fails breaks m s Q) (f : α → Run β) : Fails breaks (m >>= f) s Q := by
  obtain ⟨e, t, eq, failed, hq⟩ := h
  refine ⟨e, t, ?_, failed, hq⟩
  rw [bind_run, eq]

theorem Settles.bind_fails {m : Run α} {f : α → Run β} (h : Settles breaks m s Q)
    (hf : ∀ a t, Q t → Fails breaks (f a) t R) (le : ∀ t, Q t → R t) : Fails breaks (m >>= f) s R := by
  obtain ⟨a, t, eq, hq⟩ | failed := h
  · obtain ⟨e, u, eq', failed, hr⟩ := hf a t hq
    refine ⟨e, u, ?_, failed, hr⟩
    rw [bind_run, eq]
    exact eq'
  · exact (failed.mono le).bind f

theorem Settles.bind {m : Run α} {f : α → Run β} (h : Settles breaks m s Q)
    (hf : ∀ a t, Q t → Settles breaks (f a) t R) (le : ∀ t, Q t → R t) : Settles breaks (m >>= f) s R := by
  obtain ⟨a, t, eq, hq⟩ | failed := h
  · obtain ⟨b, u, eq', hr⟩ | ⟨e, u, eq', failed, hr⟩ := hf a t hq
    · left
      refine ⟨b, u, ?_, hr⟩
      rw [bind_run, eq]
      exact eq'
    · right
      refine ⟨e, u, ?_, failed, hr⟩
      rw [bind_run, eq]
      exact eq'
  · exact .inr ((failed.mono le).bind f)

/-! ## The beginning of a run -/

/-- Two states of the beginning of a run, between which some declared variables without a value are written. -/
structure Begins (declared : List StateVar) (s t : RunState) : Prop where
  steady : s.Steady t
  store : ∃ vs : List StateVar, vs.Sublist declared ∧ s.store.Lacks vs ∧ t.store = s.store.assign vs

namespace Begins

variable {declared more : List StateVar}

theorem of_eq (steady : s.Steady t) (store : t.store = s.store) : Begins declared s t :=
  ⟨steady, [], List.nil_sublist _, .nil _, store⟩

theorem mono (h : Begins declared s t) (sub : declared.Sublist more) : Begins more s t :=
  ⟨h.steady, h.store.imp fun _ ⟨written, rest⟩ => ⟨written.trans sub, rest⟩⟩

theorem trans {u : RunState} (h : Begins declared s t) (g : Begins more t u) : Begins (declared ++ more) s u := by
  obtain ⟨vs, sub, lacks, eq⟩ := h.store
  obtain ⟨ws, sub', lacks', eq'⟩ := g.store
  rw [eq] at lacks' eq'
  refine ⟨h.steady.trans g.steady, vs ++ ws, sub.append sub', lacks.append lacks', ?_⟩
  rw [eq', Store.assign_append]

theorem quiet (h : Begins declared s t) (quiet : s.store.listeners = []) : t.store.listeners = [] := by
  obtain ⟨vs, -, -, eq⟩ := h.store
  rw [eq, Store.assign_listeners, quiet]

end Begins

theorem settles_setStatus (status : RunStatus) (s : RunState) :
    Settles breaks (Run.setStatus status) s fun t => s.Steady t ∧ t.store = s.store := by
  refine .inl ⟨(), s.setStatus status, rfl, .setStatus s status, ?_⟩
  obtain ⟨events, eq⟩ := s.setStatus_eq status
  rw [eq]

theorem steady_guard (s : RunState) {guard : Guard} (h : guard.policy = s.engine.guard.policy) :
    s.Steady { s with engine := { s.engine with guard } } :=
  ⟨rfl, rfl, rfl, h, rfl⟩

theorem settles_settle (s : RunState) {outcome : Except Violation Unit × Guard}
    (h : outcome.2.policy = s.engine.guard.policy) :
    Settles breaks (settle outcome) s fun t => s.Steady t ∧ t.store = s.store := by
  have eq := Move.settle_run outcome s
  cases hr : outcome.1 with
  | ok done =>
    rw [hr] at eq
    exact .inl ⟨(), _, eq, steady_guard s h, rfl⟩
  | error violation =>
    rw [hr] at eq
    exact .inr ⟨.error (.refused violation), _, eq, rfl, steady_guard s h, rfl⟩

theorem fails_settle (s : RunState) {outcome : Except Violation Unit × Guard} {violation : Violation}
    (hr : outcome.1 = .error violation) (h : outcome.2.policy = s.engine.guard.policy) :
    Fails breaks (settle outcome) s fun t => s.Steady t ∧ t.store = s.store := by
  have eq := Move.settle_run outcome s
  rw [hr] at eq
  exact ⟨.error (.refused violation), _, eq, rfl, steady_guard s h, rfl⟩

theorem steady_put (s : RunState) (name : String) (value : Value) : s.Steady (Move.effect s (.write name value)) := by
  have policy := s.store.set_policy s.engine.writeGuard name value
  unfold Move.effect Engine.afterWrite Engine.writeGuard at *
  cases hg : s.engine.storeGuard with
  | some guard => exact ⟨rfl, rfl, rfl, rfl, rfl⟩
  | none =>
    rw [hg] at policy
    exact ⟨rfl, rfl, rfl, policy, rfl⟩

/-- A breakdown because the value of one of some variables cannot be written out. -/
def Unwritable (around : Surroundings) (vs : List StateVar) (b : Breakdown) : Prop :=
  ∃ v ∈ vs, ∃ i shortage, v.value.displayShortage? (around.room i) = some shortage ∧ b = .short shortage

/-- Without listeners a write makes the change, even if its text cannot be written out, or it is refused and the
store stays as it is. -/
theorem settles_write {s : RunState} (quiet : s.store.listeners = []) (v : StateVar)
    (unwritten : ∀ b, Unwritable s.engine.around [v] b → breaks b) :
    (∃ t, (write v.name v.value s = (.ok (), t) ∨ ∃ b, write v.name v.value s = (.error (.breakdown b), t) ∧ breaks b) ∧
        s.Steady t ∧ t.store = s.store.commit (s.store.changeTo v.name v.value)) ∨
      Fails breaks (write v.name v.value) s fun t => s.Steady t ∧ t.store = s.store := by
  have steady := steady_put s v.name v.value
  obtain ⟨change, result, store⟩ | ⟨violation, result, store⟩ :=
    Store.set_unheard quiet s.engine.writeGuard v.name v.value
  · left
    have after := steady.trans (.outside _)
    have traced := after.trans (.log _ .stateUpdated s!"{v.name} = {v.value.display}")
    -- the write is made before its text is written out, so the store holds it either way
    have put : write v.name v.value s = (do
        express (v.value.displayShortage? ·)
        log .stateUpdated s!"{v.name} = {v.value.display}") (Move.effect s (.write v.name v.value)) := by
      rw [write, get_bind_run, set_bind_run, result]
      rfl
    rw [put, bind_run, Move.express_run]
    cases hs : v.value.displayShortage?
        ((Move.effect s (.write v.name v.value)).engine.around.room
          (Move.effect s (.write v.name v.value)).engine.contacts) with
    | none => exact ⟨_, .inl rfl, traced, (RunState.log_store ..).trans store⟩
    | some shortage =>
      rw [steady.around] at hs
      have broken : breaks (.short shortage) :=
        unwritten _ ⟨v, List.mem_singleton_self v, _, shortage, hs, rfl⟩
      exact ⟨_, .inr ⟨.short shortage, rfl, broken⟩, after, store⟩
  · right
    refine ⟨.error (.refused violation), _, ?_, rfl, steady, store⟩
    rw [write, get_bind_run, set_bind_run, result]
    rfl

/-- A declared variable that has no value is written, unless it is refused. -/
theorem settles_writeMissing {s : RunState} (quiet : s.store.listeners = []) (v : StateVar)
    (unwritten : ∀ b, Unwritable s.engine.around [v] b → breaks b) :
    Settles breaks (writeMissing v.name v.value) s (Begins [v] s) := by
  have run : writeMissing v.name v.value s
      = if s.store.has v.name then (.ok (), s) else write v.name v.value s := by
    rw [writeMissing, get_bind_run]
    cases s.store.has v.name <;> rfl
  unfold Settles Fails
  rw [run]
  cases known : s.store.has v.name with
  | true => exact .inl ⟨(), s, rfl, .of_eq (.refl s) rfl⟩
  | false =>
    have lacks : s.store.Lacks [v] := ⟨List.forall_mem_singleton.mpr known, List.pairwise_singleton ..⟩
    obtain ⟨t, ends, steady, store⟩ | ⟨halt, t, eq, failed, steady, store⟩ := settles_write quiet v unwritten
    · have begins : Begins [v] s t := ⟨steady, [v], List.Sublist.refl _, lacks, store⟩
      rcases ends with eq | ⟨b, eq, broken⟩
      · exact .inl ⟨(), t, eq, begins⟩
      · exact .inr ⟨.breakdown b, t, eq, broken, begins⟩
    · exact .inr ⟨halt, t, eq, failed, .of_eq steady store⟩

/-- Those of some declared variables that have no value are written, as far as they are not refused. -/
theorem settles_seed {s : RunState} (quiet : s.store.listeners = []) (declared : List StateVar)
    (unwritten : ∀ b, Unwritable s.engine.around declared b → breaks b) :
    Settles breaks (seed declared) s (Begins declared s) := by
  induction declared generalizing s with
  | nil => exact .inl ⟨(), s, rfl, .of_eq (.refl s) rfl⟩
  | cons v declared ih =>
    show Settles breaks (writeMissing v.name v.value >>= fun _ => seed declared) s _
    refine (settles_writeMissing quiet v fun b h => unwritten b ?_).bind ?_ ?_
    · obtain ⟨w, hw, rest⟩ := h
      exact ⟨w, List.mem_cons.mpr (.inl (List.mem_singleton.mp hw)), rest⟩
    · intro _ t first
      refine (ih (first.quiet quiet) fun b h => unwritten b ?_).mono fun u later => first.trans later
      obtain ⟨w, hw, rest⟩ := h
      rw [first.steady.around] at rest
      exact ⟨w, List.mem_cons_of_mem v hw, rest⟩
    · intro t first
      exact first.mono (List.singleton_sublist.mpr List.mem_cons_self)

/-! ## Programs and screens that are refused -/

/-- A program that a request is refused for: its risk is higher than allowed, or it fails the checks of the guard. -/
inductive Rejects (engine : Engine) (p : Program) (risk : Option Risk) : Prop
  | risk {found : Risk} (h : risk = some found) (high : engine.options.maxRisk < found)
  | check {violation : Violation} (h : (engine.guard.check p.checks).1 = .error violation)

/-- A screen that cannot be entered: there is none, or it fails the checks of the guard. -/
inductive Bars (engine : Engine) (p : Program) (name : String) : Prop
  | missing (h : p.screen? name = none)
  | check {screen : Screen} {violation : Violation} (h : p.screen? name = some screen)
      (refused : (engine.guard.checkScreen screen).1 = .error violation)

theorem accept_some_run (p : Program) (found : Risk) (s : RunState) :
    accept p (some found) s
      = if s.engine.options.maxRisk < found then
          stop (.refused (.risk found s.engine.options.maxRisk)) s
        else check p.checks s := by
  rw [accept, Task.options_bind_run]
  split <;> rfl

theorem settles_check (s : RunState) (cs : List Check) :
    Settles breaks (check cs) s fun t => s.Steady t ∧ t.store = s.store :=
  settles_settle s (s.engine.guard.check_policy cs)

theorem settles_accept (s : RunState) (p : Program) (risk : Option Risk) :
    Settles breaks (accept p risk) s fun t => s.Steady t ∧ t.store = s.store := by
  cases risk with
  | none => exact settles_check s p.checks
  | some found =>
    unfold Settles Fails
    rw [accept_some_run]
    split
    · exact .inr ⟨_, s, rfl, rfl, .refl s, rfl⟩
    · exact settles_check s p.checks

/-- A program that is rejected fails before anything is written. -/
theorem fails_accept {s : RunState} {p : Program} {risk : Option Risk} (h : Rejects s.engine p risk) :
    Fails breaks (accept p risk) s fun t => s.Steady t ∧ t.store = s.store := by
  have checked {violation : Violation} (h : (s.engine.guard.check p.checks).1 = .error violation) :
      Fails breaks (check p.checks) s fun t => s.Steady t ∧ t.store = s.store :=
    fails_settle s h (s.engine.guard.check_policy p.checks)
  cases risk with
  | none =>
    cases h with
    | risk h => cases h
    | check h => exact checked h
  | some found =>
    unfold Fails
    rw [accept_some_run]
    by_cases high : s.engine.options.maxRisk < found
    · rw [if_pos high]
      exact ⟨_, s, rfl, rfl, .refl s, rfl⟩
    · rw [if_neg high]
      cases h with
      | risk h high' =>
        cases h
        exact absurd high' high
      | check h => exact checked h

/-- A screen that cannot be entered fails before its state is written. -/
theorem fails_enterScreen {s : RunState} {p : Program} {name : String} (h : Bars s.engine p name) :
    Fails breaks (enterScreen p name) s fun t => s.Steady t ∧ t.store = s.store := by
  unfold enterScreen
  cases h with
  | missing h =>
    rw [h]
    exact ⟨.error (.undefinedScreen name), s, rfl, rfl, .refl s, rfl⟩
  | check h refused =>
    rename_i screen violation
    rw [h]
    have failed : Fails breaks (settle (s.engine.guard.checkScreen screen)) s fun t => s.Steady t ∧ t.store = s.store :=
      fails_settle s refused (s.engine.guard.checkScreen_policy screen)
    exact failed.bind _

/-- A guard keeps its policy, so it goes on to reject and to bar what it did. -/
theorem Bars.of_steady {s t : RunState} {p : Program} {name : String} (h : Bars s.engine p name)
    (steady : s.Steady t) : Bars t.engine p name := by
  cases h with
  | missing h => exact .missing h
  | check h refused =>
    rename_i screen violation
    cases hr : (t.engine.guard.checkScreen screen).1 with
    | error violation => exact .check h hr
    | ok done =>
      rw [Guard.checkScreen_eq_ok, steady.policy, ← Guard.checkScreen_eq_ok, refused] at hr
      cases hr

theorem Rejects.of_steady {s t : RunState} {p : Program} {risk : Option Risk} (h : Rejects s.engine p risk)
    (steady : s.Steady t) : Rejects t.engine p risk := by
  cases h with
  | risk h high =>
    rw [← steady.options] at high
    exact .risk h high
  | check h =>
    cases hr : (t.engine.guard.check p.checks).1 with
    | error violation => exact .check hr
    | ok done =>
      rw [Guard.check_eq_ok, steady.policy, ← Guard.check_eq_ok, h] at hr
      cases hr

/-- A run of a program that is rejected fails, and writes nothing. -/
theorem fails_start_of_rejects {s : RunState} {p : Program} {risk : Option Risk} (h : Rejects s.engine p risk)
    (name : String) : Fails breaks (start p name risk) s fun t => s.Steady t ∧ t.store = s.store := by
  refine (settles_setStatus .initializing s).bind_fails ?_ fun t h => h
  rintro - t ⟨steady, store⟩
  refine ((fails_accept (h.of_steady steady)).mono ?_).bind _
  rintro u ⟨steady', store'⟩
  exact ⟨steady.trans steady', store'.trans store⟩

theorem fails_after {declared more : List StateVar} {m : Run α} {f : α → Run β}
    (h : Settles breaks m s (Begins declared s))
    (hf : ∀ a t, Begins declared s t → Fails breaks (f a) t (Begins more t)) :
    Fails breaks (m >>= f) s (Begins (declared ++ more) s) :=
  h.bind_fails (fun a t first => (hf a t first).mono fun _ later => first.trans later)
    fun _ first => first.mono (List.sublist_append_left ..)

theorem begins_nil (h : s.Steady t ∧ t.store = s.store) : Begins [] s t := .of_eq h.1 h.2

/-- A run on a screen that cannot be entered fails, and writes nothing but declared variables that have no
value. -/
theorem fails_start_of_bars {p : Program} {name : String} (quiet : s.store.listeners = [])
    (h : Bars s.engine p name) (risk : Option Risk) :
    Fails (Unwritable s.engine.around p.state) (start p name risk) s (Begins p.state s) := by
  -- of the steps before the screen is entered only the third one writes, and the screen is checked first
  have run : Fails (Unwritable s.engine.around p.state) (start p name risk) s
      (Begins ([] ++ ([] ++ (p.state ++ ([] ++ [])))) s) := by
    refine fails_after ((settles_setStatus .initializing s).mono fun _ => begins_nil) fun _ t₁ b₁ => ?_
    refine fails_after ((settles_accept t₁ p risk).mono fun _ => begins_nil) fun _ t₂ b₂ => ?_
    have around := (b₁.steady.trans b₂.steady).around
    refine fails_after (settles_seed (b₂.quiet (b₁.quiet quiet)) p.state fun b h => around ▸ h) fun _ t₃ b₃ => ?_
    refine fails_after ((settles_setStatus .running t₃).mono fun _ => begins_nil) fun _ t₄ b₄ => ?_
    have steady := ((b₁.steady.trans b₂.steady).trans b₃.steady).trans b₄.steady
    exact (fails_enterScreen (h.of_steady steady)).mono fun _ => begins_nil
  simpa only [List.nil_append, List.append_nil] using run

end Run

/-! ## Results -/

/-- A result of a run that has failed before it navigated anywhere. -/
structure RunResult.Refused (r : RunResult) : Prop where
  status : r.status = .failed
  success : r.success = false
  navigations : r.navigations = []

/-- A run that fails comes to a result that tells so, or breaks off, and the shared store is left as the run leaves
it. -/
theorem Engine.perform_fails {engine : Engine} {run : Run Unit} {store : Store} {breaks : Breakdown → Prop}
    {Q : RunState → Prop} (hs : engine.shared = some store) (h : run.Fails breaks (Run.first engine store) Q)
    (steady : ∀ t, Q t → (Run.first engine store).Steady t) :
    ∃ t, Q t ∧ (engine.perform run).engine.shared = some t.store ∧
      ((∃ r, (engine.perform run).result = .ok r ∧ r.Refused) ∨
        ∃ b, (engine.perform run).result = .error b ∧ breaks b) := by
  obtain ⟨halt, t, eq, failed, hq⟩ := h
  have kept := steady t hq
  have found : engine.storeForRun = .ok store := by
    unfold storeForRun
    rw [hs]
  have shared : t.engine.shared = some store := kept.shared.trans hs
  refine ⟨t, hq, ?_⟩
  unfold perform RunState.perform
  rw [found]
  dsimp only
  rw [show (⟨engine, store, store.memory, [], [], []⟩ : RunState) = Run.first engine store from rfl, eq]
  -- an error is told in a result, a breakdown is not, and the shared store is kept in both cases
  cases halt with
  | error e =>
    dsimp only
    rw [RunState.finish_eq]
    refine ⟨?_, .inl ⟨_, rfl, failed, rfl, kept.navigations⟩⟩
    unfold keep
    dsimp only
    rw [shared]
    rfl
  | breakdown b =>
    refine ⟨?_, .inr ⟨b, rfl, failed⟩⟩
    unfold keep
    dsimp only
    rw [shared]

namespace RunRequest

/-- The risk that is found in the program of a request. -/
def risk : RunRequest → Option Risk
  | .run _ risk => risk
  | .dispatch .. => none

/-- The screen that a request names. -/
def screenName (p : Program) : RunRequest → String
  | .run entry _ => shown p entry
  | .dispatch screen _ => screen

theorem exists_step_eq (engine : Engine) (p : Program) (q : RunRequest) :
    ∃ f, q.step engine p = engine.perform (Run.start p (q.screenName p) q.risk >>= f) := by
  cases q with
  | run entry risk => exact ⟨_, rfl⟩
  | dispatch screen handler => exact ⟨_, rfl⟩

/-- Without listeners, a request whose program is rejected fails, and leaves the shared store as it is. A request
whose screen is missing or fails the checks has written nothing but some variables of the program that had no value,
each of them once; it fails, too, unless one of the declared values cannot be written out. -/
theorem refused_without_trace {engine : Engine} {store : Store} (hs : engine.shared = some store)
    (quiet : store.listeners = []) (p : Program) (q : RunRequest) :
    (Run.Rejects engine p q.risk →
      ∃ r, (q.step engine p).result = .ok r ∧ r.Refused ∧ (q.step engine p).engine.shared = some store) ∧
    (Run.Bars engine p (q.screenName p) →
      ∃ vs, List.Sublist vs p.state ∧ store.Lacks vs ∧
        (q.step engine p).engine.shared = some (store.assign vs) ∧
        ((∃ r, (q.step engine p).result = .ok r ∧ r.Refused) ∨
          ∃ b, (q.step engine p).result = .error b ∧ Run.Unwritable engine.around p.state b)) := by
  obtain ⟨f, eq⟩ := exists_step_eq engine p q
  rw [eq]
  constructor
  · intro rejects
    have fails : Run.Fails (fun _ => False) (Run.start p (q.screenName p) q.risk) (Run.first engine store) _ :=
      Run.fails_start_of_rejects rejects (q.screenName p)
    obtain ⟨t, ⟨-, same⟩, shared, ⟨r, result, refused⟩ | ⟨b, -, ⟨⟩⟩⟩ :=
      Engine.perform_fails hs (fails.bind f) fun t h => h.1
    exact ⟨r, result, refused, shared.trans (congrArg some same)⟩
  · intro bars
    have fails : Run.Fails _ (Run.start p (q.screenName p) q.risk) (Run.first engine store) _ :=
      Run.fails_start_of_bars quiet bars q.risk
    obtain ⟨t, begins, shared, ends⟩ := Engine.perform_fails hs (fails.bind f) fun t h => h.steady
    obtain ⟨vs, sub, lacks, same⟩ := begins.store
    exact ⟨vs, sub, lacks, shared.trans (congrArg some same), ends⟩

/-- A program that starts on a screen that it does not have. -/
def astray : Program := ⟨"astray", "Gone", [], [⟨"count", .int 0⟩, ⟨"total", .int 1⟩], [], []⟩

/-- A store with one of its variables. -/
def counted : Store := ⟨[("count", .int 7)], [], 5, 8, [], 0⟩

/-- An engine whose runs share this store. -/
def counting : Engine := { Engine.ofOptions .default with shared := some counted }

/-- At a risk that is not allowed nothing is written; otherwise the variable is written that has no value, and the
run fails. -/
theorem refused_astray :
    (∃ r, ((RunRequest.run none (some .critical)).step counting astray).result = .ok r ∧ r.Refused ∧
      ((RunRequest.run none (some .critical)).step counting astray).engine.shared = some counted) ∧
    (∃ r vs, ((RunRequest.run none none).step counting astray).result = .ok r ∧ r.Refused ∧
      List.Sublist vs astray.state ∧ counted.Lacks vs ∧
      ((RunRequest.run none none).step counting astray).engine.shared = some (counted.assign vs)) ∧
    ((RunRequest.run none none).step counting astray).engine.shared.map (·.values.map (·.1))
      = some ["count", "total"] := by
  refine ⟨?_, ?_, by decide +kernel⟩
  · exact (refused_without_trace rfl rfl astray (.run none (some .critical))).1 (.risk rfl (by decide))
  · have bars : Run.Bars counting astray "Gone" := .missing rfl
    obtain ⟨vs, sub, lacks, shared, ⟨r, result, refused⟩ | ⟨b, -, v, hv, i, shortage, short, -⟩⟩ :=
      (refused_without_trace rfl rfl astray (.run none none)).2 bars
    · exact ⟨r, vs, result, refused, sub, lacks, shared⟩
    · -- the declared values are small numbers
      have written : ∀ v ∈ astray.state, v.value.displayShortage? 300 = none := by decide +kernel
      cases (written v hv).symm.trans short

end RunRequest

end Screenplay
