/-
One text read at several levels. The parser has the same checks applied at every level and comes to
the same outcome if they pass, so readings of a text differ only in what the guards make of the
checks: the strict level reads exactly the texts that the permissive one reads without a warning, and
refuses any other text that is read there for the first of the warnings.
-/
import Screenplay.Proofs.Parse.Grammar
import Screenplay.Proofs.Parse.Uniform

namespace Screenplay.Program

open Parse

/-! ## The reading of a text -/

/-- What a reading of a text comes to under a guard: the outcome of the parser, unless one of the
checks that it applied is refused. -/
def settleReading (checks : List Check) (outcome : Except Failure Program) (guard : Guard) :
    Except Failure Program × Guard :=
  match guard.check checks with
  | (.ok (), guard) => (outcome, guard)
  | (.error violation, guard) => (.error (.refused violation), guard)

/-- The checks applied to a text, and what they guard, are the same at every level. -/
theorem parse_eq_settleReading (source : Source) :
    ∃ checks outcome, ∀ level,
      parse level source = settleReading checks outcome (.ofLevel level) := by
  cases ht : source.tokens with
  | error failure =>
    refine ⟨[], .error failure, fun level => ?_⟩
    rw [parse, Policy.read, ht]
    rfl
  | ok tokens =>
    obtain ⟨t, h⟩ := Uniform.rules.program (k := .advances) source (.ofTokens tokens) 0
    refine ⟨t.checks, t.outcome, fun level => ?_⟩
    have hl := h (.ofLevel level)
    rw [parse, Policy.read, ht]
    show ((parser source ⟨.ofTokens tokens, .ofLevel level, 0⟩).1.map _ |>.map _,
      (parser source ⟨.ofTokens tokens, .ofLevel level, 0⟩).2.guard) = _
    unfold settleReading
    rcases hc : (Guard.ofLevel level).check t.checks with ⟨v | _, guard⟩
    · obtain ⟨h1, h2⟩ := hl.refused v guard hc
      rw [h1, h2]
      rfl
    · rw [hl.passed guard hc]
      cases t.outcome <;> rfl

theorem settleReading_ok {checks : List Check} {outcome : Except Failure Program} {guard : Guard}
    {p : Program} :
    (settleReading checks outcome guard).1 = .ok p ↔
      (guard.check checks).1 = .ok () ∧ outcome = .ok p := by
  unfold settleReading
  rcases guard.check checks with ⟨_ | _, _⟩ <;> simp

/-- The guard of a reading is that of the checks, whatever the reading comes to. -/
theorem settleReading_guard (checks : List Check) (outcome : Except Failure Program)
    (guard : Guard) : (settleReading checks outcome guard).2 = (guard.check checks).2 := by
  unfold settleReading
  rcases guard.check checks with ⟨_ | _, _⟩ <;> rfl

/-! ## Relaxed levels -/

/-- A text that is read at one level is read as the same program at every level whose denylist is
covered or only warns. -/
theorem parse_ok_of_relaxed {level other : Level} (hs : (Policy.ofLevel level).lenient = false)
    (hd : (Policy.ofLevel other).lenient = true ∨ (Policy.ofLevel level).Covers (Policy.ofLevel other))
    {source : Source} {p : Program} (h : (parse level source).1 = .ok p) :
    (parse other source).1 = .ok p := by
  obtain ⟨checks, outcome, hr⟩ := parse_eq_settleReading source
  rw [hr, settleReading_ok] at h ⊢
  exact ⟨Guard.check_ok_of_relaxed hs (Policy.ceiling_ofLevel level other) hd h.1, h.2⟩

/-- What passes under the strict guard passes under that of any level, without a warning. -/
theorem check_of_strict {checks : List Check} (h : ((Guard.ofLevel .strict).check checks).1 = .ok ())
    (level : Level) : (Guard.ofLevel level).check checks = (.ok (), .ofLevel level) := by
  have hs : (Guard.ofLevel .strict).policy.lenient = false := rfl
  have hc : (Guard.ofLevel .strict).policy.Covers (Guard.ofLevel level).policy :=
    Policy.covers_ofLevel level
  have same := Policy.ceiling_ofLevel .strict level
  rw [Guard.check_eq_of_covers hs same hc fun pattern place => by rw [h]; simp, h]

/-- A text that is read at the strict level is read at every level, without a warning. -/
theorem parse_of_strict {source : Source} {p : Program} (h : (parse .strict source).1 = .ok p)
    (level : Level) : parse level source = (.ok p, .ofLevel level) := by
  obtain ⟨checks, outcome, hr⟩ := parse_eq_settleReading source
  rw [hr, settleReading_ok] at h
  rw [hr, settleReading, check_of_strict h.1 level, h.2]

/-! ## The strict and the permissive level -/

/-- A lenient guard that refuses nothing has warned about nothing exactly if a strict one with its
denylist refuses nothing either; otherwise the first warning tells what the strict one refuses. -/
theorem strict_check_of_permissive {checks : List Check}
    (h : ((Guard.ofLevel .permissive).check checks).1 = .ok ()) :
    ((Guard.ofLevel .strict).check checks).1 =
      match ((Guard.ofLevel .permissive).check checks).2.hits with
      | [] => .ok ()
      | hit :: _ => .error (.denied hit.pattern hit.place) := by
  have hs : (Guard.ofLevel .strict).policy.lenient = false := rfl
  have hp : (Guard.ofLevel .permissive).policy.lenient = true := rfl
  exact Guard.check_of_hits hs hp (Policy.ceiling_ofLevel .strict .permissive) rfl rfl h

/-- Reading a text at the strict level is reading it at the permissive one without any warning. Where
the permissive level reads a text with warnings, the strict one refuses it for a function on the
denylist, in the words of the first of them. -/
theorem parse_strict_iff_unwarned (source : Source) :
    (∀ p, (parse .strict source).1 = .ok p ↔
      (parse .permissive source).1 = .ok p ∧ (parse .permissive source).2.warnings = []) ∧
    (∀ p, (parse .strict source).1 = .ok p → (parse .strict source).2.warnings = []) ∧
    ∀ p first later, (parse .permissive source).1 = .ok p →
      (parse .permissive source).2.warnings = first :: later →
      ∃ violation, (parse .strict source).1 = .error (.refused violation) ∧
        violation.kind = .dangerousFunction ∧ violation.message = first := by
  -- at every level the same checks are made, and their outcome is all that the levels differ in
  obtain ⟨checks, outcome, hr⟩ := parse_eq_settleReading source
  simp only [hr, settleReading_ok, settleReading_guard]
  refine ⟨fun p => ⟨?_, ?_⟩, ?_, ?_⟩
  · rintro ⟨hs, ho⟩
    rw [check_of_strict hs]
    exact ⟨⟨rfl, ho⟩, rfl⟩
  · rintro ⟨⟨hp, ho⟩, hw⟩
    refine ⟨?_, ho⟩
    rw [strict_check_of_permissive hp, List.map_eq_nil_iff.mp hw]
  · rintro p -
    rw [Guard.check_strict rfl]
    rfl
  · rintro p first later ⟨hp, -⟩ hw
    obtain ⟨hit, hits, hh, rfl, -⟩ := List.map_eq_cons_iff.mp hw
    have hs := strict_check_of_permissive hp
    rw [hh] at hs
    refine ⟨.denied hit.pattern hit.place, ?_, rfl, rfl⟩
    unfold settleReading
    rcases hc : (Guard.ofLevel .strict).check checks with ⟨v | _, guard⟩
    · rw [hc] at hs
      cases hs
      rfl
    · rw [hc] at hs
      cases hs

/-- A source that calls a function on the denylist. -/
def riskySource : Source :=
  .ofText "app A \x7b start = H \x7d screen H \x7b ui \x7b button \"go\" \x7b subprocess(1) \x7d \x7d \x7d" none

/-- The permissive level reads it with a warning, in the words of which the strict level refuses it. -/
theorem parse_strict_iff_unwarned_riskySource :
    (∃ p, (parse .permissive riskySource).1 = .ok p) ∧
      ∃ violation, (parse .strict riskySource).1 = .error (.refused violation) ∧
        violation.kind = .dangerousFunction ∧
        violation.message = "Dangerous function 'subprocess' detected in function call" := by
  have passes : (parse .permissive riskySource).1.isOk = true := by decide +kernel
  have warned : (parse .permissive riskySource).2.warnings =
      ["Dangerous function 'subprocess' detected in function call"] := by
    decide +kernel
  cases read : (parse .permissive riskySource).1 with
  | error e => rw [read] at passes; cases passes
  | ok p =>
    obtain ⟨-, -, refuses⟩ := parse_strict_iff_unwarned riskySource
    exact ⟨⟨p, rfl⟩, refuses p _ [] read warned⟩

end Screenplay.Program
