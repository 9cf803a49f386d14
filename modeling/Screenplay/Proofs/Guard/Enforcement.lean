/-
What a guard enforces. A lenient guard lets hits on its denylist through, so only the ceilings and the
dangerous names are left of its policy; any other guard enforces its policy as it is. Checks pass a
guard exactly if they all pass the policy that it enforces, and a check that fails without being a
breach of a ceiling or a dangerous name is a hit.
-/
import Screenplay.Proofs.Guard.Admission

namespace Screenplay

/-! ## Enforced policies -/

namespace Policy

/-- A policy without its denylist: the ceilings and the dangerous names are left. -/
def unlisted (policy : Policy) : Policy := { policy with patterns := [] }

/-- The part of a policy that a guard refuses to let go. -/
def enforced (policy : Policy) : Policy := if policy.lenient then policy.unlisted else policy

theorem enforced_eq_self {policy : Policy} (h : policy.lenient = false) :
    policy.enforced = policy := by
  unfold enforced
  rw [h]
  rfl

/-- Its ceilings hold under a lenient policy as well. -/
@[simp] theorem ceiling_enforced (policy : Policy) : policy.enforced.ceiling = policy.ceiling := by
  unfold enforced
  split <;> rfl

@[simp] theorem maxString_enforced (policy : Policy) : policy.enforced.maxString = policy.maxString :=
  congrFun policy.ceiling_enforced .string

@[simp] theorem maxElements_enforced (policy : Policy) :
    policy.enforced.maxElements = policy.maxElements :=
  congrFun policy.ceiling_enforced .elements

@[simp] theorem maxScreens_enforced (policy : Policy) : policy.enforced.maxScreens = policy.maxScreens :=
  congrFun policy.ceiling_enforced .screens

@[simp] theorem maxStateVariables_enforced (policy : Policy) :
    policy.enforced.maxStateVariables = policy.maxStateVariables :=
  congrFun policy.ceiling_enforced .stateVariables

end Policy

namespace Check

/-- Without a denylist, the breaches are all that is left to fail for. -/
theorem passes_unlisted {policy : Policy} {c : Check} :
    c.Passes policy.unlisted ↔ c.breach? policy = none := by
  constructor
  · intro h
    exact h.1
  · intro h
    refine ⟨h, ?_⟩
    cases c <;> rfl

theorem passes_enforced {policy : Policy} {c : Check} :
    c.Passes policy.enforced ↔
      c.breach? policy = none ∧ (policy.lenient = false → c.hit? policy = none) := by
  unfold Policy.enforced
  cases hl : policy.lenient with
  | true => simp [passes_unlisted]
  | false => simp [Passes]

end Check

/-! ## Guards -/

namespace Guard

/-- Checks pass a guard exactly if they pass the policy that it enforces. -/
theorem check_eq_ok {guard : Guard} {cs : List Check} :
    (guard.check cs).1 = .ok () ↔ ∀ c ∈ cs, c.Passes guard.policy.enforced := by
  rw [check_ok_iff]
  exact forall₂_congr fun c _ => Check.passes_enforced.symm

/-- A guard refuses a breach of one of the checks, or a hit. -/
theorem check_eq_error {guard : Guard} {cs : List Check} {violation : Violation}
    (h : (guard.check cs).1 = .error violation) :
    (∃ c ∈ cs, c.breach? guard.policy = some violation) ∨
      ∃ pattern place, violation = .denied pattern place := by
  induction cs generalizing guard with
  | nil => cases h
  | cons c cs ih =>
    -- a failure of the later checks is one of all checks
    have later {next : Guard} (same : next.policy = guard.policy) (hn : (next.check cs).1 = .error violation) :
        (∃ d ∈ c :: cs, d.breach? guard.policy = some violation) ∨
          ∃ pattern place, violation = .denied pattern place := by
      rcases ih hn with ⟨d, hd, hb⟩ | hit
      · exact .inl ⟨d, List.mem_cons_of_mem _ hd, same ▸ hb⟩
      · exact .inr hit
    rw [check_cons, checkOne_eq] at h
    cases hh : c.hit? guard.policy with
    | some hit =>
      rw [hh] at h
      cases hl : guard.policy.lenient with
      | true => rw [hl] at h; exact later (note_policy guard hit) h
      | false => rw [hl] at h; cases h; exact .inr ⟨_, _, rfl⟩
    | none =>
      rw [hh] at h
      cases hb : c.breach? guard.policy with
      | some v => rw [hb] at h; cases h; exact .inl ⟨c, List.mem_cons_self, hb⟩
      | none => rw [hb] at h; exact later rfl h

/-- Checks without a breach fail for a hit only. -/
theorem check_error_of_no_breach {guard : Guard} {cs : List Check}
    (hb : ∀ c ∈ cs, c.breach? guard.policy = none) {violation : Violation}
    (h : (guard.check cs).1 = .error violation) :
    ∃ pattern place, violation = .denied pattern place := by
  rcases check_eq_error h with ⟨c, hc, hv⟩ | hit
  · rw [hb c hc] at hv
    cases hv
  · exact hit

end Guard

end Screenplay
