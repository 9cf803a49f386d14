/-
The ceilings at run time. A program that has been read meets the ceilings of an engine at its texts only:
the parser has counted its depths, sizes and names the way an engine does, or more strictly, and values
that are copied from variables are no larger than what the store has let in. What can still grow are the
texts that expressions evaluate to, and the texts of arguments.
-/
import Screenplay.Proofs.Parse.VettedPrograms
import Screenplay.Proofs.Run.Results
import Screenplay.Proofs.Run.Traversal
import Screenplay.Proofs.Store.Writes

namespace Screenplay

/-! ## Values of expressions -/

/-- A value that meets no ceiling but that for texts. -/
def Value.TextOrAdmitted (policy : Policy) (v : Value) : Prop :=
  (∃ t, v = .text t) ∨ v.Admitted policy.unlisted 0

theorem Value.Admitted.unlisted {policy : Policy} {v : Value} (h : v.Admitted policy 0) :
    v.Admitted policy.unlisted 0 := by
  have passes : ∀ c ∈ Check.value "" 0 v, c.Passes policy := (Check.passes_value 0 v).mpr h
  have unlisted : ∀ c ∈ Check.value "" 0 v, c.Passes policy.unlisted :=
    fun c hc => Check.passes_unlisted.mpr (passes c hc).1
  exact (Check.passes_value 0 v).mp unlisted

/-- A vetted expression evaluates to a text, or to what a literal or a variable holds. -/
theorem Expr.evaluate_textOrAdmitted {policy : Policy} {look : String → Option Value}
    (hl : ∀ name v, look name = some v → v.Admitted policy.unlisted 0) :
    ∀ {e : Expr} {v : Value}, e.Vetted policy → e.evaluate look = .ok v → v.TextOrAdmitted policy
  | .literal value, v, he, h => by
    cases h
    exact .inr ((Check.passes_value 0 value).mp he).unlisted
  | .var name, v, _, h => by
    cases h
    cases hn : look name with
    | none => exact .inl ⟨name, rfl⟩
    | some w => exact .inr (hl name w hn)
  | .field target name, v, ⟨_, ht⟩, h => by
    rw [evaluate] at h
    cases hw : target.evaluate look with
    | error e => rw [hw] at h; cases h
    | ok w =>
      rw [hw] at h
      have held := evaluate_textOrAdmitted hl ht hw
      cases hm : w.member? name with
      | none =>
        simp only [bind, Except.bind, hm] at h
        cases h
        exact .inl ⟨_, rfl⟩
      | some u =>
        simp only [bind, Except.bind, hm] at h
        cases h
        -- a text has no members, so the member belongs to an admitted value
        rcases held with ⟨t, rfl⟩ | held
        · cases hm
        · exact .inr (held.member hm)
  | .interpolation parts, v, _, h => by
    rw [evaluate] at h
    cases hd : displays look parts with
    | error e => rw [hd] at h; cases h
    | ok texts => rw [hd] at h; cases h; exact .inl ⟨_, rfl⟩
  | .not _, _, _, h | .binary .., _, _, h | .call .., _, _, h => by
    rw [evaluate] at h
    cases h

/-! ## Errors -/

/-- An error that is no limit but the length of a text, and no invalid operation but a range that is none
or an argument that is too long. -/
structure RunError.Textual (policy : Policy) (e : RunError) : Prop where
  limit : e.kind = "resource_limit_exceeded" →
    ∃ current, e = .refused (.limit "string value length" current policy.maxString)
  operation : e.kind = "invalid_operation" →
    (∃ text, Range.ofText? text = none ∧ e = .invalidRange text) ∨
      ∃ length, maxArgument < length ∧ e = .longArgument length

namespace RunError

variable {policy : Policy}

/-- Errors of other kinds do not matter. -/
theorem Textual.of_kind {e : RunError} (kind : String) (hk : e.kind = kind)
    (hl : kind ≠ "resource_limit_exceeded") (ho : kind ≠ "invalid_operation") : e.Textual policy :=
  ⟨fun h => absurd (hk.symm.trans h) hl, fun h => absurd (hk.symm.trans h) ho⟩

/-- Policies with the same ceilings tell the same errors. -/
theorem Textual.of_ceiling {other : Policy} {e : RunError} (h : e.Textual policy)
    (same : policy.ceiling = other.ceiling) : e.Textual other := by
  have strings : policy.maxString = other.maxString := congrFun same .string
  refine ⟨?_, h.operation⟩
  rw [← strings]
  exact h.limit

theorem textual_denied (pattern place : String) : (refused (.denied pattern place)).Textual policy :=
  .of_kind "dangerous_function" rfl (by decide) (by decide)

theorem textual_text (current : Int) :
    (refused (.limit "string value length" current policy.maxString)).Textual policy :=
  ⟨fun _ => ⟨current, rfl⟩, fun h => absurd h (by simp [kind, Violation.kind, Violation.Kind.name])⟩

/-- Checks whose breaches are lengths of texts only. -/
def TextualChecks (policy : Policy) (cs : List Check) : Prop :=
  ∀ c ∈ cs, ∀ v, c.breach? policy = some v → (refused v).Textual policy

theorem textualChecks_of_passes {cs : List Check} (h : ∀ c ∈ cs, c.Passes policy) : TextualChecks policy cs := by
  rintro c hc v hv
  rw [(h c hc).1] at hv
  cases hv

theorem textualChecks_string (text place : String) : TextualChecks policy (Check.string text place) := by
  rintro c hc v hv
  simp only [Check.string, List.mem_cons, List.not_mem_nil, or_false] at hc
  rcases hc with rfl | rfl
  · rw [Check.breach?] at hv
    split at hv
    · cases hv
      exact textual_text _
    · cases hv
  · cases hv

theorem textualChecks_text (text place : String) : TextualChecks policy [.text text place] := by
  rintro c hc v hv
  rw [List.mem_singleton.mp hc] at hv
  cases hv

/-- A value that meets no ceiling but that for texts may be written to an admitted name. -/
theorem textualChecks_state {name : String} (hn : policy.AdmitsName name) {value : Value}
    (hv : value.TextOrAdmitted policy) : TextualChecks policy (Check.state name value) := by
  rintro c hc v hb
  rcases List.mem_append.mp hc with hm | hm
  · exact textualChecks_of_passes hn c hm v hb
  · rcases hv with ⟨t, rfl⟩ | hv
    · rcases List.mem_cons.mp hm with rfl | hm
      · cases hb
      · exact textualChecks_string _ _ c hm v hb
    · have within : c.breach? policy.unlisted = none := ((Check.passes_value 0 value).mpr hv c hm).1
      rw [Check.breach?_congr (show policy.unlisted.ceiling = policy.ceiling from rfl), hb] at within
      cases within

/-- A guard with the ceilings of the policy refuses such checks for the length of a text or for a hit. -/
theorem textual_of_refused {cs : List Check} (h : TextualChecks policy cs) {guard : Guard}
    (same : guard.policy.ceiling = policy.ceiling) {v : Violation} (hv : (guard.check cs).1 = .error v) :
    (refused v).Textual policy := by
  rcases Guard.check_eq_error hv with ⟨c, hc, hb⟩ | ⟨pattern, place, rfl⟩
  · exact h c hc v ((Check.breach?_congr same c).symm.trans hb)
  · exact textual_denied _ _

end RunError

/-! ## Steps -/

/-- A state of a run whose guards have the ceilings of a policy, whose variables are within them, and in which
no listener writes. -/
structure RunState.Within (policy : Policy) (s : RunState) : Prop where
  guard : s.engine.guard.policy.ceiling = policy.ceiling
  writeGuard : s.engine.writeGuard.policy.ceiling = policy.ceiling
  values : policy.unlisted.AdmitsAll s.store.values
  quiet : ∀ l ∈ s.store.listeners, ∀ name, l.reaction ≠ .write name

namespace RunState.Within

variable {policy : Policy} {s : RunState}

/-- Checks leave the policies of the guards as they are. -/
theorem checked (h : s.Within policy) {guard : Guard} (same : guard.policy = s.engine.guard.policy) :
    { s with engine := { s.engine with guard } }.Within policy := by
  have own : guard.policy.ceiling = policy.ceiling := by rw [same, h.guard]
  refine ⟨own, ?_, h.values, h.quiet⟩
  have write := h.writeGuard
  unfold Engine.writeGuard at write ⊢
  cases hg : s.engine.storeGuard with
  | none => exact own
  | some other => rwa [hg] at write

/-- A write leaves the policies of the guards as they are. -/
theorem written (h : s.Within policy) {w : Write} (same : w.guard.policy = s.engine.writeGuard.policy)
    (values : policy.unlisted.AdmitsAll w.store.values)
    (quiet : ∀ l ∈ w.store.listeners, ∀ name, l.reaction ≠ .write name) :
    { s with store := w.store, engine := s.engine.afterWrite w, heard := s.heard ++ w.heard }.Within policy := by
  have after : w.guard.policy.ceiling = policy.ceiling := by rw [same, h.writeGuard]
  rw [Engine.afterWrite]
  split
  · exact ⟨h.guard, after, values, quiet⟩
  · next own =>
    refine ⟨after, ?_, values, quiet⟩
    show (s.engine.storeGuard.getD _).policy.ceiling = policy.ceiling
    rw [own]
    exact after

end RunState.Within

namespace Run

variable {policy : Policy}

theorem detached_within : Detached (RunState.Within policy) :=
  fun _ _ _ h => ⟨h.guard, h.writeGuard, h.values, h.quiet⟩

theorem within_log (kind : EventKind) (detail : String) :
    Safe (RunState.Within policy) (RunError.Textual policy) (log kind detail) := by
  refine .modify fun s h => ?_
  obtain ⟨events, eq, -⟩ := s.log_eq kind detail
  rw [eq]
  exact ⟨h.guard, h.writeGuard, h.values, h.quiet⟩

theorem within_check {cs : List Check} (h : RunError.TextualChecks policy cs) :
    Safe (RunState.Within policy) (RunError.Textual policy) (check cs) :=
  .check cs (fun s hs => hs.checked (s.engine.guard.check_policy cs)) fun _ hs _ hv =>
    RunError.textual_of_refused h hs.guard hv

/-- A guard lets nothing into the store that is above the ceilings. -/
theorem within_write {name : String} {value : Value}
    (h : RunError.TextualChecks policy (Check.state name value)) :
    Safe (RunState.Within policy) (RunError.Textual policy) (write name value) := by
  refine .write detached_within (fun s hs => ⟨hs.written (Store.set_policy _ _ _ _) ?_ ?_, ?_⟩) (within_log _ _)
  · refine Store.set_keeps_admitted hs.values fun ok => Check.passes_state.mp fun c hc => ?_
    have same : s.engine.writeGuard.policy.enforced.ceiling = policy.ceiling := by
      rw [Policy.ceiling_enforced, hs.writeGuard]
    exact Check.passes_unlisted.mpr ((Check.breach?_congr same c).symm.trans (Guard.check_eq_ok.mp ok c hc).1)
  · exact fun l hl => hs.quiet l (Store.set_listeners _ _ _ _ hl)
  · rintro e he
    rcases Store.set_error he with ⟨v, hv, rfl⟩ | ⟨l, hl, other, hw, -⟩
    · exact RunError.textual_of_refused h hs.writeGuard hv
    · exact absurd hw (hs.quiet l hl other)

theorem within_writeMissing {name : String} {value : Value}
    (h : RunError.TextualChecks policy (Check.state name value)) :
    Safe (RunState.Within policy) (RunError.Textual policy) (writeMissing name value) :=
  .writeMissing (within_write h)

theorem within_arguments (args : List Expr) :
    Safe (RunState.Within policy) (RunError.Textual policy) (arguments args) := by
  refine .arguments detached_within (fun text => within_check (RunError.textualChecks_text _ _)) ?_ args
  intro length long
  exact ⟨fun h => absurd h (by simp [RunError.kind]), fun _ => .inr ⟨length, long, rfl⟩⟩

/-- What is assigned is a text, which is checked first, or a value that is within the ceilings. -/
theorem within_update {name : String} (hn : policy.AdmitsName name) {value : Expr}
    (hv : value.Vetted policy) (source : String) :
    Safe (RunState.Within policy) (RunError.Textual policy) (update name value source) := by
  refine .update detached_within (fun _ => within_log _ _) (fun _ => within_check (RunError.textualChecks_string _ _)) ?_
  rintro s hs v he
  have looked : ∀ other w, s.store.get? other = some w → w.Admitted policy.unlisted 0 := by
    rintro other w hf
    obtain ⟨e, hm, rfl⟩ := Option.map_eq_some_iff.mp hf
    exact (hs.values e (List.mem_of_find?_eq_some hm)).value
  exact within_write (RunError.textualChecks_state hn (Expr.evaluate_textOrAdmitted looked hv he))

/-- Every step of a run of a vetted program meets the ceilings at texts only. -/
theorem steps_within {p : Program} (hp : p.Vetted policy) :
    Steps p (RunState.Within policy) (RunError.Textual policy) where
  outside := detached_within
  -- stops of a checkpoint and of the risk are told apart from errors at texts by their kinds
  cancelled := .of_kind "cancelled" rfl (by decide) (by decide)
  timedOut _ := .of_kind "timeout" rfl (by decide) (by decide)
  outOfMemory _ _ := .of_kind "memory_exceeded" rfl (by decide) (by decide)
  status _ := .modify fun s h => by
    obtain ⟨events, eq⟩ := s.setStatus_eq _
    rw [eq]
    exact ⟨h.guard, h.writeGuard, h.values, h.quiet⟩
  accept _ := .accept (within_check (RunError.textualChecks_of_passes hp.checks)) fun _ _ =>
    .of_kind "permission_violation" rfl (by decide) (by decide)
  screen s hs := by
    refine .settle (·.checkScreen s) (fun t h => h.checked (t.engine.guard.checkScreen_policy s))
      fun _ h v hv => ?_
    obtain ⟨pattern, place, rfl⟩ := (hp.screens s hs).denied h.guard hv
    exact RunError.textual_denied _ _
  appState v hv := within_writeMissing
    (RunError.textualChecks_of_passes (Check.passes_state.mpr (hp.state v hv)))
  screenState s hs v hv := within_writeMissing
    (RunError.textualChecks_of_passes (Check.passes_state.mpr ((hp.screens s hs).state v hv)))
  -- depths, lengths and numbers of arguments have been vetted, so these errors do not come up at all
  node _ _ h := .checkDepth fun deep => absurd (hp.depth_le h) (Nat.not_le_of_lt deep)
  rendered _ := within_log _ _
  tracked _ := .modify fun _ h => ⟨h.guard, h.writeGuard, h.values, h.quiet⟩
  input _ _ binding h := within_writeMissing
    (RunError.textualChecks_state (List.forall_mem_append.mp (hp.site h)).2 (.inl ⟨_, rfl⟩))
  list _ binding _ h := within_writeMissing
    (RunError.textualChecks_state (hp.site h) (.inr ⟨by decide, by decide, trivial⟩))
  missing _ _ _ _ _ := .of_kind "undefined_variable" rfl (by decide) (by decide)
  block _ _ h := .checkDepth fun deep =>
    absurd (Action.vetted_block.mp (hp.site h)) (Nat.not_le_of_lt deep)
  executed _ _ := within_log _ _
  navigate n h := by
    have short : n.target.length ≤ maxTarget := by
      simpa using hp.site h _ List.mem_cons_self
    exact .navigate (fun long => absurd short (Nat.not_le_of_lt long))
      (within_check (RunError.textualChecks_text _ _)) (within_arguments _)
      (fun _ h => ⟨h.guard, h.writeGuard, h.values, h.quiet⟩) (within_log _ _)
  update name value source h hv := within_update (hp.site h)
    (Expr.vetted_iff_sites.mpr fun site hm => hp.site (hv site hm)) source
  call function args h := by
    have few : args.length ≤ maxArguments := by
      simpa using hp.site h _ (List.mem_cons_of_mem _ List.mem_cons_self)
    exact .call (within_check (RunError.textualChecks_text _ _))
      (fun many => absurd few (Nat.not_le_of_lt many)) (within_arguments args) fun _ => within_log _ _
  code text h := .skipCode (within_check (RunError.textualChecks_string _ _)) fun _ => within_log _ _
  largeLoop name range body h large := by
    have small : body.length ≤ maxLoopBody := by
      simpa using (List.forall_mem_append.mp (hp.site h)).2 _ List.mem_cons_self
    exact absurd small (Nat.not_le_of_lt large)
  invalidRange _ range _ _ invalid :=
    ⟨fun h => absurd h (by simp [RunError.kind]), fun _ => .inl ⟨range, invalid, rfl⟩⟩
  counted name _ _ h i := by
    have number : (Value.int i).TextOrAdmitted policy := .inr (Nat.zero_le maxDepth)
    exact within_write (RunError.textualChecks_state (List.forall_mem_append.mp (hp.site h)).1 number)

end Run

/-! ## Engines -/

namespace Engine

/-- An engine whose guards have the policies of levels. -/
structure Leveled (engine : Engine) : Prop where
  guard : ∃ level, engine.guard.policy = .ofLevel level
  storeGuard : ∀ guard, engine.storeGuard = some guard → ∃ level, guard.policy = .ofLevel level

/-- An engine whose runs start without variables, and in which no listener writes: one that does stops
the run by itself, whatever the program. -/
def StartsEmpty (engine : Engine) : Prop :=
  ∀ store, engine.shared = some store →
    store.values = [] ∧ ∀ l ∈ store.listeners, ∀ name, l.reaction ≠ .write name

theorem leveled_ofOptions (options : RunOptions) : (ofOptions options).Leveled := ⟨⟨options.level, rfl⟩, nofun⟩

theorem startsEmpty_ofOptions (options : RunOptions) : (ofOptions options).StartsEmpty := nofun

variable {engine : Engine} (empty : engine.StartsEmpty) (leveled : engine.Leveled) {level : Level} {policy : Policy}
  (same : policy.ceiling = (Policy.ofLevel level).ceiling)
include empty leveled same

/-- A run of an engine that starts empty is within the ceilings of all levels at first. -/
theorem StartsEmpty.first {store : Store} (h : engine.storeForRun = .ok store) :
    (Run.first engine store).Within policy := by
  have ceilings {guard : Guard} (any : ∃ level, guard.policy = .ofLevel level) :
      guard.policy.ceiling = policy.ceiling := by
    obtain ⟨other, own⟩ := any
    rw [own, same, Policy.ceiling_ofLevel level other]
  have quiet : store.values = [] ∧ ∀ l ∈ store.listeners, ∀ name, l.reaction ≠ .write name := by
    rcases storeForRun_eq_ok h with shared | ⟨capacity, rfl⟩
    · exact empty store shared
    · exact ⟨rfl, fun _ hl => absurd hl List.not_mem_nil⟩
  refine ⟨ceilings leveled.guard, ceilings ?_, ?_, quiet.2⟩
  · show ∃ level, engine.writeGuard.policy = _
    unfold writeGuard
    cases hg : engine.storeGuard with
    | none => exact leveled.guard
    | some guard => exact leveled.storeGuard guard hg
  · rintro e he
    rw [Run.first, quiet.1] at he
    cases he

theorem StartsEmpty.perform {run : Run Unit} (hr : run.Safe (RunState.Within policy) (RunError.Textual policy))
    {r : RunResult} (h : (engine.perform run).result = .ok r) {e : RunError} (he : r.error = some e) :
    e.Textual (.ofLevel level) := by
  obtain ⟨store, hs, -, -, stopped⟩ := perform_ok h
  exact ((hr _ (empty.first leveled same hs)).2 e (stopped e he)).of_ceiling same

omit empty leveled same

/-- A program that has been read at a level passes every guard of the level, and its screens do. On an
engine that starts empty, a limit that it exceeds is the length of a text, and an operation that is
invalid is a range that is none or an argument that is too long, whatever is run or dispatched, and whatever
goes on around it: the engine's other ceilings are never met. -/
theorem textual_of_parsed {level : Level} {source : Source} {p : Program}
    (hp : (Program.parse level source).1 = .ok p) :
    (∀ guard : Guard, guard.policy = .ofLevel level →
      (guard.check p.checks).1 = .ok () ∧ ∀ s ∈ p.screens, (guard.checkScreen s).1 = .ok ()) ∧
    ∀ engine : Engine, engine.Leveled → engine.StartsEmpty →
      (∀ entry risk r, (engine.run p entry risk).result = .ok r →
        ∀ e, r.error = some e → e.Textual (.ofLevel level)) ∧
      ∀ screen handler r, (engine.dispatch p screen handler).result = .ok r →
        ∀ e, r.error = some e → e.Textual (.ofLevel level) := by
  have vetted := Program.vetted_of_parse hp
  constructor
  · rintro guard hg
    rw [← hg] at vetted
    exact ⟨Guard.check_eq_ok.mpr vetted.checks, fun s hs => (vetted.screens s hs).passes⟩
  · rintro engine leveled empty
    have steps := Run.steps_within vetted
    have same := Policy.ceiling_enforced (.ofLevel level)
    have undefined (name : String) : (RunError.undefinedScreen name).Textual (Policy.ofLevel level).enforced :=
      .of_kind "undefined_variable" rfl (by decide) (by decide)
    constructor
    · rintro entry risk r h e he
      exact empty.perform leveled same (steps.showing (fun _ => undefined _) risk) h he
    · rintro screen handler r h e he
      refine empty.perform leveled same (steps.handling (fun _ => undefined _) fun _ _ _ => ?_) h he
      exact .of_kind "undefined_variable" rfl (by decide) (by decide)

/-- A source text with a counter, and a button that sets it and counts up to no number. -/
def counterSource : Source :=
  .ofText ("app A \x7b start = H state count = 0 \x7d\nscreen H \x7b ui \x7b button \"more\" \x7b "
    ++ "count = 1\nfor i in 1..many \x7b count = i \x7d \x7d \x7d \x7d") none

/-- The program is read, its guards let it pass, and a run of it that has set the counter ends with an error
that is no ceiling but that for texts. -/
theorem textual_counterSource :
    ∃ p, (Program.parse .strict counterSource).1 = .ok p ∧
      ((Guard.ofLevel .strict).check p.checks).1 = .ok () ∧
      ∃ r e, ((ofOptions .default).run p none none).result = .ok r ∧
        ⟨.stateUpdated, "count = 1"⟩ ∈ r.events ∧
          r.error = some e ∧ e.kind = "invalid_operation" ∧ e.Textual (.ofLevel .strict) := by
  have told : (Program.parse .strict counterSource).1.toOption.any (fun p =>
      ((ofOptions .default).run p none none).result.toOption.any fun r =>
        r.events.contains ⟨.stateUpdated, "count = 1"⟩ && r.error.any (·.kind == "invalid_operation")) = true := by
    decide +kernel
  cases hp : (Program.parse .strict counterSource).1 with
  | error e => rw [hp] at told; cases told
  | ok p =>
    rw [hp, Except.toOption, Option.any_some] at told
    obtain ⟨r, h, told⟩ := EngineStep.exists_result told
    rw [Bool.and_eq_true, List.contains_iff_mem, Option.any_eq_true_iff_get] at told
    obtain ⟨counted, failed, kind⟩ := told
    obtain ⟨e, he⟩ := Option.isSome_iff_exists.mp failed
    simp only [he, Option.get_some, beq_iff_eq] at kind
    have parsed := textual_of_parsed hp
    refine ⟨p, rfl, (parsed.1 (.ofLevel .strict) rfl).1, r, e, h, counted, he, kind, ?_⟩
    exact (parsed.2 _ (leveled_ofOptions .default) (startsEmpty_ofOptions .default)).1 none none r h e he

end Engine

end Screenplay
