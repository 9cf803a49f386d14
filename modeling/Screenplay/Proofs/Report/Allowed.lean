/-
Findings without a violation: what an analysis that passes says of the places of the program. Every text
that it judges under a policy that is not lenient is free of the denylist, and all sites of all screens
are judged.
-/
import Screenplay.Proofs.Guard.Checking
import Screenplay.Report.Analysis

namespace Screenplay

namespace Finding

/-! ## Lists of findings -/

/-- Whether none of some findings is a violation. -/
def Allowed (found : List Finding) : Prop := ∀ v, violation v ∉ found

theorem allowed_nil : Allowed [] := fun _ => List.not_mem_nil

theorem allowed_append {found later : List Finding} :
    Allowed (found ++ later) ↔ Allowed found ∧ Allowed later := by
  simp only [Allowed, List.mem_append, not_or, forall_and]

theorem not_allowed_violation {v : Violation} {found : List Finding} :
    ¬ Allowed (violation v :: found) :=
  fun h => h v List.mem_cons_self

theorem allowed_flatMap {α : Type} {judge : α → List Finding} {items : List α} :
    Allowed (items.flatMap judge) ↔ ∀ a ∈ items, Allowed (judge a) := by
  simp only [Allowed, List.mem_flatMap, not_exists, not_and]
  exact forall_comm.trans (forall_congr' fun a => forall_comm)

theorem allowed_refuseIf {condition : Bool} {v : Violation} :
    Allowed (refuseIf condition v) ↔ condition = false := by
  cases condition <;> simp [refuseIf, Allowed]

theorem firstViolation?_eq_none {found : List Finding} :
    firstViolation? found = none ↔ Allowed found := by
  unfold firstViolation?
  rw [List.findSome?_eq_none_iff]
  constructor
  · intro h v hv
    cases h _ hv
  · intro h f hf
    cases f with
    | violation v => exact absurd hf (h v)
    | _ => rfl

/-! ## Judgements -/

theorem allowed_ofText {policy : Policy} (hp : policy.lenient = false) {text place : String} :
    Allowed (ofText policy text place) ↔ policy.findBlocked text = none := by
  unfold ofText
  cases policy.findBlocked text with
  | none => exact iff_of_true allowed_nil rfl
  | some pattern => rw [hp]; exact iff_of_false not_allowed_violation (by simp)

/-- Every site of a screen is judged. -/
theorem allowed_of_mem_sites {policy : Policy} {s : Screen} (h : Allowed (ofScreen policy s))
    {site : Site} (hs : site ∈ s.sites) : Allowed (ofSite policy site) := by
  simp only [ofScreen, allowed_append, allowed_flatMap] at h
  obtain ⟨⟨⟨-, ui⟩, -⟩, handlers⟩ := h
  rcases List.mem_append.mp hs with hu | hh
  · exact ui site hu
  · obtain ⟨handler, hm, hs⟩ := List.mem_flatMap.mp hh
    have := handlers handler hm
    rw [ofHandler, allowed_append, allowed_flatMap] at this
    exact this.2 site hs

theorem allowed_ofScreen_of_mem {policy : Policy} {p : Program} {source : Option String}
    (h : Allowed (ofProgram policy p source)) {s : Screen} (hs : s ∈ p.screens) :
    Allowed (ofScreen policy s) := by
  simp only [ofProgram, allowed_append, allowed_flatMap] at h
  exact h.1.2 s hs

/-- The findings about a program as a whole depend on the functions called. -/
theorem allowed_ofWhole {policy : Policy} {p : Program} {found : List Finding} :
    Allowed (ofWhole policy p found) ↔
      (calls found).length ≤ policy.maxFunctions ∧ p.complexity ≤ policy.maxComplexity := by
  unfold ofWhole ofLimit
  simp [allowed_append, allowed_refuseIf]

end Finding

/-! ## Reports -/

open Finding in
theorem Report.analyze_eq_ok {level : Level} {p : Program} {source : Option String} {report : Report} :
    analyze level p source = .ok report ↔
      Allowed (ofProgram (Policy.ofLevel level) p source) ∧
        Allowed (ofWhole (Policy.ofLevel level) p (ofProgram (Policy.ofLevel level) p source)) ∧
        ofFindings (Policy.ofLevel level) p (ofProgram (Policy.ofLevel level) p source) = report := by
  rw [← and_assoc, ← allowed_append, ← firstViolation?_eq_none, ← Finding.all]
  unfold analyze
  dsimp only
  split
  · next v hv => simp [hv]
  · next hn => simp [hn]

end Screenplay
