/-
What a guard admits that refuses hits on its denylist. Its checks of a name and a value pass exactly if
the name and everything inside the value is free of the denylist and within the ceilings. Such a guard
never changes, so applying it is a test and nothing else.
-/
import Screenplay.Proofs.Guard.Checking

namespace Screenplay

/-! ## Passing -/

/-- A check that finds nothing wrong under a policy, and no hit either. -/
def Check.Passes (policy : Policy) (c : Check) : Prop := c.breach? policy = none ∧ c.hit? policy = none

namespace Check

variable {policy : Policy}

@[simp] theorem passes_text {t place : String} :
    (text t place).Passes policy ↔ policy.findBlocked t = none := by
  simp [Passes, breach?, hit?]

@[simp] theorem passes_limit {entity : String} {current ceiling : Int} :
    (limit entity current ceiling).Passes policy ↔ current ≤ ceiling := by
  simp [Passes, breach?, hit?]

@[simp] theorem passes_capped {ceiling : Ceiling} {entity : String} {current : Int} :
    (capped ceiling entity current).Passes policy ↔ current ≤ policy.ceiling ceiling := by
  simp [Passes, breach?, hit?]

@[simp] theorem passes_name {n : String} :
    (name n).Passes policy ↔ n ∉ dangerousNames := by
  simp [Passes, breach?, hit?]

end Check

/-- A guard that refuses hits lets checks pass exactly if all of them pass, and stays as it is. -/
theorem Guard.check_refusing {guard : Guard} (hg : guard.policy.lenient = false) (cs : List Check) :
    (guard.check cs = (.ok (), guard) ∧ ∀ c ∈ cs, c.Passes guard.policy) ∨
      ∃ violation, guard.check cs = (.error violation, guard) := by
  have hs := check_strict hg cs
  have hi := check_ok_iff guard cs
  rcases hc : guard.check cs with ⟨v | _, after⟩
  · rw [hc] at hs
    exact .inr ⟨v, by rw [← hs]⟩
  · rw [hc] at hs hi
    refine .inl ⟨by rw [← hs], fun c hm => ?_⟩
    obtain ⟨hb, hh⟩ := hi.mp rfl c hm
    exact ⟨hb, hh hg⟩

/-! ## Values -/

mutual

/-- A value at some depth of nesting that is free of a denylist, its texts and the names of its maps,
and within the ceilings for texts, lists, maps and nesting. -/
def Value.Admitted (policy : Policy) (depth : Nat) : Value → Prop
  | .text t => depth ≤ maxDepth ∧ t.length ≤ policy.maxString ∧ policy.findBlocked t = none
  | .list items => depth ≤ maxDepth ∧ items.length ≤ maxItems ∧ AllAdmitted policy (depth + 1) items
  | .map entries =>
    depth ≤ maxDepth ∧ entries.length ≤ maxMapEntries ∧ EntriesAdmitted policy (depth + 1) entries
  | .null | .bool _ | .int _ | .float _ => depth ≤ maxDepth

/-- Values that are all admitted. -/
def Value.AllAdmitted (policy : Policy) (depth : Nat) : List Value → Prop
  | [] => True
  | v :: vs => v.Admitted policy depth ∧ AllAdmitted policy depth vs

/-- The entries of a map, whose names are free of the denylist and whose values are admitted. -/
def Value.EntriesAdmitted (policy : Policy) (depth : Nat) : List (String × Value) → Prop
  | [] => True
  | (k, v) :: es =>
    policy.findBlocked k = none ∧ v.Admitted policy depth ∧ EntriesAdmitted policy depth es

end

mutual

theorem Check.passes_value {policy : Policy} {place : String} (depth : Nat) :
    ∀ v : Value, (∀ c ∈ Check.value place depth v, c.Passes policy) ↔ v.Admitted policy depth
  | .text t => by simp [Check.value, Check.string, Value.Admitted, Policy.ceiling]
  | .list items => by
    simp [Check.value, Value.Admitted, Check.passes_values (depth + 1) items]
  | .map entries => by
    simp [Check.value, Value.Admitted, Check.passes_entryValues (depth + 1) entries]
  | .null | .bool _ | .int _ | .float _ => by simp [Check.value, Value.Admitted]

theorem Check.passes_values {policy : Policy} {place : String} (depth : Nat) :
    ∀ vs : List Value,
      (∀ c ∈ Check.values place depth vs, c.Passes policy) ↔ Value.AllAdmitted policy depth vs
  | [] => by simp [Check.values, Value.AllAdmitted]
  | v :: vs => by
    simp only [Check.values, Value.AllAdmitted, List.forall_mem_append]
    exact and_congr (Check.passes_value depth v) (Check.passes_values depth vs)

theorem Check.passes_entryValues {policy : Policy} {place : String} (depth : Nat) :
    ∀ es : List (String × Value),
      (∀ c ∈ Check.entryValues place depth es, c.Passes policy) ↔
        Value.EntriesAdmitted policy depth es
  | [] => by simp [Check.entryValues, Value.EntriesAdmitted]
  | (k, v) :: es => by
    simp only [Check.entryValues, Value.EntriesAdmitted, List.forall_mem_cons,
      List.forall_mem_append, List.cons_append, Check.passes_text]
    exact and_congr_right fun _ =>
      and_congr (Check.passes_value depth v) (Check.passes_entryValues depth es)

end

mutual

/-- What is admitted at some depth of nesting is admitted further out. -/
theorem Value.Admitted.outer {policy : Policy} {depth outer : Nat} (hd : outer ≤ depth) :
    ∀ {v : Value}, v.Admitted policy depth → v.Admitted policy outer
  | .text _, ⟨h, ht⟩ => ⟨Nat.le_trans hd h, ht⟩
  | .list _, ⟨h, hl, hi⟩ => ⟨Nat.le_trans hd h, hl, AllAdmitted.outer (Nat.succ_le_succ hd) hi⟩
  | .map _, ⟨h, hl, he⟩ => ⟨Nat.le_trans hd h, hl, EntriesAdmitted.outer (Nat.succ_le_succ hd) he⟩
  | .null, h | .bool _, h | .int _, h | .float _, h => Nat.le_trans hd h

theorem Value.AllAdmitted.outer {policy : Policy} {depth outer : Nat} (hd : outer ≤ depth) :
    ∀ {vs : List Value}, AllAdmitted policy depth vs → AllAdmitted policy outer vs
  | [], _ => trivial
  | _ :: _, ⟨hv, hvs⟩ => ⟨hv.outer hd, hvs.outer hd⟩

theorem Value.EntriesAdmitted.outer {policy : Policy} {depth outer : Nat} (hd : outer ≤ depth) :
    ∀ {es : List (String × Value)}, EntriesAdmitted policy depth es → EntriesAdmitted policy outer es
  | [], _ => trivial
  | _ :: _, ⟨hk, hv, hes⟩ => ⟨hk, hv.outer hd, hes.outer hd⟩

end

theorem Value.AllAdmitted.of_mem {policy : Policy} {depth : Nat} {vs : List Value}
    (h : AllAdmitted policy depth vs) {v : Value} (hv : v ∈ vs) : v.Admitted policy depth := by
  induction vs with
  | nil => cases hv
  | cons first vs ih =>
    rcases List.mem_cons.mp hv with rfl | hv
    · exact h.1
    · exact ih h.2 hv

theorem Value.EntriesAdmitted.of_mem {policy : Policy} {depth : Nat} {es : List (String × Value)}
    (h : EntriesAdmitted policy depth es) {e : String × Value} (he : e ∈ es) :
    e.2.Admitted policy depth := by
  induction es with
  | nil => cases he
  | cons first es ih =>
    obtain ⟨-, hv, hes⟩ := h
    rcases List.mem_cons.mp he with rfl | he
    · exact hv
    · exact ih hes he

theorem Value.EntriesAdmitted.clean_of_mem {policy : Policy} {depth : Nat} {es : List (String × Value)}
    (h : EntriesAdmitted policy depth es) {e : String × Value} (he : e ∈ es) :
    policy.findBlocked e.1 = none := by
  induction es with
  | nil => cases he
  | cons first es ih =>
    obtain ⟨hk, -, hes⟩ := h
    rcases List.mem_cons.mp he with rfl | he
    · exact hk
    · exact ih hes he

/-- An entry of an admitted map is admitted by itself. -/
theorem Value.Admitted.member {policy : Policy} {v w : Value} (h : v.Admitted policy 0)
    {name : String} (hw : v.member? name = some w) : w.Admitted policy 0 := by
  cases v with
  | map entries =>
    obtain ⟨-, -, he⟩ := h
    obtain ⟨e, hf, rfl⟩ := Option.map_eq_some_iff.mp hw
    exact (he.of_mem (List.mem_of_find?_eq_some hf)).outer (Nat.zero_le _)
  | _ => cases hw

/-! ## Variables -/

/-- A variable that a policy admits: its name and its value are free of the denylist and within the
ceilings, and the name is not one of the dangerous ones. -/
structure Policy.Admits (policy : Policy) (name : String) (value : Value) : Prop where
  nameLength : name.length ≤ maxStateName
  nameSafe : name ∉ dangerousNames
  nameClean : policy.findBlocked name = none
  value : value.Admitted policy 0

theorem Check.passes_state {policy : Policy} {name : String} {value : Value} :
    (∀ c ∈ Check.state name value, c.Passes policy) ↔ policy.Admits name value := by
  simp only [Check.state, Check.stateName, List.forall_mem_append, List.forall_mem_cons,
    passes_limit, passes_name, passes_text, passes_value]
  constructor
  · rintro ⟨⟨hl, hn, hc, -⟩, hv⟩
    exact ⟨by omega, hn, hc, hv⟩
  · rintro ⟨hl, hn, hc, hv⟩
    exact ⟨⟨by omega, hn, hc, fun _ => by simp⟩, hv⟩

end Screenplay
