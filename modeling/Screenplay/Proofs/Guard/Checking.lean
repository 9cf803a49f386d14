/-
The same checks under two guards with the same ceilings. A denylist covers another one if it is hit
wherever the other is. Checks that pass under a denylist pass under those that it covers, and checks that
a strict guard does not refuse for a hit have the same outcome under every guard whose denylist it covers.
Where a lenient guard notes hits, the first of them is the one that a strict guard with the same denylist
refuses.
-/
import Screenplay.Guard

namespace Screenplay

/-! ## Denylists that cover other ones -/

/-- A policy whose denylist is hit by every text that hits the denylist of another one. -/
def Policy.Covers (policy other : Policy) : Prop :=
  ∀ text, policy.findBlocked text = none → other.findBlocked text = none

theorem Policy.covers_of_sublist {policy other : Policy}
    (h : other.patterns ⊆ policy.patterns) : policy.Covers other := by
  intro text hn
  unfold Policy.findBlocked at hn ⊢
  rw [List.find?_eq_none] at hn ⊢
  exact fun pattern hp => hn pattern (h hp)

/-- The strict denylist covers that of every level. -/
theorem Policy.covers_ofLevel (level : Level) : (ofLevel .strict).Covers (ofLevel level) := by
  apply covers_of_sublist
  cases level
  · exact List.Subset.refl _
  · exact List.filter_sublist.subset
  · exact List.Subset.refl _

/-- Every level but the permissive one refuses hits on its denylist. -/
theorem Policy.not_lenient {level : Level} (h : level ≠ .permissive) :
    (ofLevel level).lenient = false := by
  cases level with
  | permissive => exact absurd rfl h
  | _ => rfl

/-- The ceilings are the same at all levels. -/
theorem Policy.ceiling_ofLevel (level other : Level) : (ofLevel other).ceiling = (ofLevel level).ceiling := by
  cases level <;> cases other <;> rfl

theorem Policy.findBlocked_congr {policy other : Policy} (h : other.patterns = policy.patterns)
    (text : String) : other.findBlocked text = policy.findBlocked text := by
  unfold Policy.findBlocked
  rw [h]

namespace Check

/-- A violation that a check finds under all policies with the same ceilings: any but a hit on the
denylist. -/
def breach? (policy : Policy) : Check → Option Violation
  | text .. => none
  | limit entity current ceiling =>
    if ceiling < current then some (.limit entity current ceiling) else none
  | capped ceiling entity current =>
    if policy.ceiling ceiling < current then some (.limit entity current (policy.ceiling ceiling)) else none
  | name n => if dangerousNames.contains n then some (.dangerousName n) else none

/-- The hit on the denylist of a policy that a check finds. -/
def hit? (policy : Policy) : Check → Option Hit
  | text t place => (policy.findBlocked t).map (⟨·, place⟩)
  | _ => none

theorem violation?_eq (policy : Policy) (c : Check) :
    c.violation? policy =
      match c.hit? policy with
      | some hit => some (.denied hit.pattern hit.place)
      | none => c.breach? policy := by
  cases c with
  | text t place => cases h : policy.findBlocked t <;> simp [violation?, hit?, breach?, h]
  | limit | capped | name => rfl

/-- A breach is never a hit on the denylist. -/
theorem breach?_ne_denied (policy : Policy) (c : Check) (pattern place : String) :
    c.breach? policy ≠ some (.denied pattern place) := by
  cases c with
  | text => simp [breach?]
  | limit | capped | name => simp only [breach?]; split <;> simp

theorem breach?_congr {policy other : Policy} (h : other.ceiling = policy.ceiling) (c : Check) :
    c.breach? other = c.breach? policy := by
  cases c with
  | capped => simp only [breach?, h]
  | text | limit | name => rfl

theorem hit?_none_of_covers {policy other : Policy} (hc : policy.Covers other) {c : Check}
    (h : c.hit? policy = none) : c.hit? other = none := by
  cases c with
  | text t place =>
    simp only [hit?, Option.map_eq_none_iff] at h ⊢
    exact hc t h
  | limit | capped | name => rfl

theorem hit?_congr {policy other : Policy} (h : other.patterns = policy.patterns) (c : Check) :
    c.hit? other = c.hit? policy := by
  cases c with
  | text t place => simp only [hit?, Policy.findBlocked_congr h]
  | limit | capped | name => rfl

end Check

/-! ## Runs of checks -/

namespace Guard

theorem checkOne_eq (guard : Guard) (c : Check) :
    guard.checkOne c =
      match c.hit? guard.policy with
      | some hit =>
        if guard.policy.lenient then (.ok (), guard.note hit)
        else (.error (.denied hit.pattern hit.place), guard)
      | none =>
        match c.breach? guard.policy with
        | some violation => (.error violation, guard)
        | none => (.ok (), guard) := by
  unfold checkOne
  rw [Check.violation?_eq]
  cases c.hit? guard.policy with
  | some hit => rfl
  | none =>
    cases hb : c.breach? guard.policy with
    | none => rfl
    | some v =>
      cases v with
      | denied pattern place => exact absurd hb (Check.breach?_ne_denied _ c pattern place)
      | _ => rfl

@[simp] theorem check_nil (guard : Guard) : guard.check [] = (.ok (), guard) := rfl

theorem check_cons (guard : Guard) (c : Check) (cs : List Check) :
    guard.check (c :: cs) =
      match guard.checkOne c with
      | (.ok (), guard) => guard.check cs
      | (.error violation, guard) => (.error violation, guard) := by
  rw [check]
  rcases guard.checkOne c with ⟨_ | _, _⟩ <;> rfl

theorem check_append (guard : Guard) (cs ds : List Check) :
    guard.check (cs ++ ds) =
      match guard.check cs with
      | (.ok (), guard) => guard.check ds
      | (.error violation, guard) => (.error violation, guard) := by
  induction cs generalizing guard with
  | nil => rfl
  | cons c cs ih =>
    rw [List.cons_append, check_cons, check_cons]
    rcases guard.checkOne c with ⟨_ | _, _⟩
    · rfl
    · exact ih _

@[simp] theorem note_policy (guard : Guard) (hit : Hit) : (guard.note hit).policy = guard.policy := by
  unfold note; split <;> rfl

theorem hits_prefix_note (guard : Guard) (hit : Hit) : guard.hits <+: (guard.note hit).hits := by
  unfold note
  split
  · exact List.prefix_refl _
  · exact List.prefix_append _ _

theorem checkOne_policy (guard : Guard) (c : Check) :
    (guard.checkOne c).2.policy = guard.policy := by
  rw [checkOne_eq]
  split
  · split
    · exact note_policy _ _
    · rfl
  · split <;> rfl

/-- A guard keeps its policy. -/
@[simp] theorem check_policy (guard : Guard) (cs : List Check) :
    (guard.check cs).2.policy = guard.policy := by
  induction cs generalizing guard with
  | nil => rfl
  | cons c cs ih =>
    rw [check_cons, ← checkOne_policy guard c]
    rcases guard.checkOne c with ⟨_ | _, _⟩
    · rfl
    · exact ih _

/-- Hits are only ever added, at the end. -/
theorem hits_prefix_check (guard : Guard) (cs : List Check) :
    guard.hits <+: (guard.check cs).2.hits := by
  induction cs generalizing guard with
  | nil => exact List.prefix_refl _
  | cons c cs ih =>
    rw [check_cons, checkOne_eq]
    cases c.hit? guard.policy with
    | some hit =>
      cases guard.policy.lenient with
      | true => exact (hits_prefix_note guard hit).trans (ih _)
      | false => exact List.prefix_refl _
    | none =>
      cases c.breach? guard.policy with
      | some v => exact List.prefix_refl _
      | none => exact ih guard

/-- A strict guard never changes. -/
theorem check_strict {guard : Guard} (hs : guard.policy.lenient = false) (cs : List Check) :
    (guard.check cs).2 = guard := by
  induction cs with
  | nil => rfl
  | cons c cs ih =>
    rw [check_cons, checkOne_eq, hs]
    cases c.hit? guard.policy with
    | some hit => rfl
    | none =>
      cases c.breach? guard.policy with
      | some v => rfl
      | none => exact ih

/-- Checks pass exactly if none of them is a breach and, unless the guard is lenient, none a hit. -/
theorem check_ok_iff (guard : Guard) (cs : List Check) :
    (guard.check cs).1 = .ok () ↔
      ∀ c ∈ cs, c.breach? guard.policy = none ∧ (guard.policy.lenient = false → c.hit? guard.policy = none) := by
  induction cs generalizing guard with
  | nil => simp
  | cons c cs ih =>
    rw [check_cons, checkOne_eq, List.forall_mem_cons]
    cases hh : c.hit? guard.policy with
    | some hit =>
      cases hl : guard.policy.lenient with
      | true =>
        -- only texts are hit, and a text is never a breach
        have hb : c.breach? guard.policy = none := by cases c <;> simp [Check.hit?, Check.breach?] at hh ⊢
        have := ih (guard.note hit)
        rw [note_policy, hl] at this
        simpa [hb] using this
      | false => simp
    | none =>
      cases hb : c.breach? guard.policy with
      | some v => simp
      | none => simpa using ih guard

/-! ## Two guards -/

/-- Checks that pass under a guard pass under a lenient one, and under one whose denylist is
covered. -/
theorem check_ok_of_relaxed {guard other : Guard} (hg : guard.policy.lenient = false)
    (hs : other.policy.ceiling = guard.policy.ceiling)
    (ho : other.policy.lenient = true ∨ guard.policy.Covers other.policy) {cs : List Check}
    (h : (guard.check cs).1 = .ok ()) : (other.check cs).1 = .ok () := by
  rw [check_ok_iff] at h ⊢
  intro c hc
  refine ⟨(Check.breach?_congr hs c).trans (h c hc).1, fun hl => ?_⟩
  rcases ho with ho | ho
  · rw [ho] at hl; cases hl
  · exact Check.hit?_none_of_covers ho ((h c hc).2 hg)

/-- Unless a strict guard refuses a hit, a guard whose denylist it covers comes to the same outcome
without noting anything. -/
theorem check_eq_of_covers {guard other : Guard} (hg : guard.policy.lenient = false)
    (hs : other.policy.ceiling = guard.policy.ceiling) (hc : guard.policy.Covers other.policy) {cs : List Check}
    (h : ∀ pattern place, (guard.check cs).1 ≠ .error (.denied pattern place)) :
    other.check cs = ((guard.check cs).1, other) := by
  induction cs with
  | nil => rfl
  | cons c cs ih =>
    rw [check_cons, checkOne_eq, hg] at h
    rw [check_cons, check_cons, checkOne_eq guard, checkOne_eq other]
    cases hh : c.hit? guard.policy with
    | some hit => rw [hh] at h; exact absurd rfl (h hit.pattern hit.place)
    | none =>
      -- breaches are the same under both policies, so the guards part at hits only
      rw [hh] at h
      rw [Check.hit?_none_of_covers hc hh, Check.breach?_congr hs]
      cases hb : c.breach? guard.policy with
      | some v => rfl
      | none => rw [hb] at h; exact ih h

/-- A strict guard refuses the first hit that a lenient one with the same denylist lets through. -/
theorem check_of_hits {guard other : Guard} (hg : guard.policy.lenient = false)
    (ho : other.policy.lenient = true) (hs : other.policy.ceiling = guard.policy.ceiling)
    (hp : other.policy.patterns = guard.policy.patterns)
    (hn : other.hits = []) {cs : List Check} (hok : (other.check cs).1 = .ok ()) :
    (guard.check cs).1 =
      match (other.check cs).2.hits with
      | [] => .ok ()
      | hit :: _ => .error (.denied hit.pattern hit.place) := by
  induction cs with
  | nil => rw [check_nil, check_nil, hn]
  | cons c cs ih =>
    rw [check_cons other, checkOne_eq other, ho, Check.hit?_congr hp, Check.breach?_congr hs] at hok ⊢
    rw [check_cons, checkOne_eq guard, hg]
    cases hh : c.hit? guard.policy with
    | some hit =>
      -- later checks only add to the hit noted here
      obtain ⟨later, hl⟩ := hits_prefix_check (other.note hit) cs
      have hf : (other.note hit).hits = [hit] := by simp [note, hn]
      rw [hf] at hl
      simp only [if_true]
      rw [← hl]
      rfl
    | none =>
      rw [hh] at hok
      cases hb : c.breach? guard.policy with
      | some v => rw [hb] at hok; cases hok
      | none => rw [hb] at hok; exact ih hok

end Guard

end Screenplay
