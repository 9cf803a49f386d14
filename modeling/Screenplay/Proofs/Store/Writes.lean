/-
Writes to a store. Whatever its listeners do, a write changes one variable and the listeners hear of that
one only, and it fails because the guard refuses it or a listener writes. Under a guard that refuses hits
a store that holds admitted variables only goes on to do so, and the guard stays as it is.
-/
import Screenplay.Proofs.Guard.Admission
import Screenplay.Store

namespace Screenplay

/-! ## Variables -/

/-- Variables that a policy all admits. -/
def Policy.AdmitsAll (policy : Policy) (values : Entries Value) : Prop :=
  ∀ e ∈ values, policy.Admits e.1 e.2

theorem Policy.AdmitsAll.put {policy : Policy} {values : Entries Value} {name : String}
    {value : Value} (h : policy.AdmitsAll values) (hv : policy.Admits name value) :
    policy.AdmitsAll (values.put name value) := by
  intro e he
  rcases Entries.mem_put he with rfl | he
  · exact hv
  · exact h e he

/-! ## Writes -/

namespace Store

variable {policy : Policy}

theorem react_admitsAll {s s' : Store} {reaction : Reaction} (h : policy.AdmitsAll s.values)
    (hr : s.react reaction = .ok s') : policy.AdmitsAll s'.values := by
  cases reaction with
  | write name => cases hr
  | clear => cases hr; exact fun _ he => absurd he List.not_mem_nil
  | _ => cases hr; exact h

theorem notify_guard (guard : Guard) (change : Change) (s : Store) (heard : List Delivery)
    (listeners : List Listener) : (notify guard change s heard listeners).guard = guard := by
  induction listeners generalizing s heard with
  | nil => rfl
  | cons l later ih =>
    rw [notify]
    split
    · exact ih _ _
    · rfl

theorem notify_admitsAll (guard : Guard) (change : Change) {s : Store} (heard : List Delivery)
    (listeners : List Listener) (h : policy.AdmitsAll s.values) :
    policy.AdmitsAll (notify guard change s heard listeners).store.values := by
  induction listeners generalizing s heard with
  | nil => exact h
  | cons l later ih =>
    rw [notify]
    split
    · next hr => exact ih _ (react_admitsAll h hr)
    · exact h

/-- If a variable that passes the guard is admitted, a write keeps the store free of other ones. -/
theorem set_keeps_admitted {guard : Guard} {s : Store} {name : String} {value : Value}
    (h : policy.AdmitsAll s.values)
    (hv : (guard.check (Check.state name value)).1 = .ok () → policy.Admits name value) :
    policy.AdmitsAll (s.set guard name value).store.values := by
  unfold set
  rcases hc : guard.check (Check.state name value) with ⟨violation | ⟨⟩, after⟩
  · exact h
  · rw [hc] at hv
    exact notify_admitsAll _ _ _ _ (h.put (hv rfl))

/-- A write under a guard that refuses hits leaves the guard as it is. -/
theorem set_guard {guard : Guard} (hg : guard.policy.lenient = false) (s : Store) (name : String)
    (value : Value) : (s.set guard name value).guard = guard := by
  unfold set
  rcases Guard.check_refusing hg (Check.state name value) with ⟨hc, -⟩ | ⟨violation, hc⟩
  · rw [hc]
    exact notify_guard _ _ _ _ _
  · rw [hc]

/-- Such a write keeps the store free of anything that the guard does not admit. -/
theorem set_admitsAll {guard : Guard} (hg : guard.policy.lenient = false) {s : Store}
    (name : String) (value : Value) (h : guard.policy.AdmitsAll s.values) :
    guard.policy.AdmitsAll (s.set guard name value).store.values := by
  refine set_keeps_admitted h fun ok => ?_
  rcases Guard.check_refusing hg (Check.state name value) with ⟨-, pass⟩ | ⟨violation, hc⟩
  · exact Check.passes_state.mp pass
  · rw [hc] at ok
    cases ok

/-! ## What is written -/

/-- A store in which all variables and changes are old, or bear one of some names. -/
structure Writes (names : String → Prop) (before s : Store) : Prop where
  values : ∀ e ∈ s.values, e ∈ before.values ∨ names e.1
  history : ∀ c ∈ s.history, c ∈ before.history ∨ names c.name

namespace Writes

variable {names : String → Prop} {before s : Store}

theorem refl (s : Store) : Writes names s s := ⟨fun _ h => .inl h, fun _ h => .inl h⟩

theorem commit (h : Writes names before s) {change : Change} (hn : names change.name) :
    Writes names before (s.commit change) := by
  refine ⟨?_, ?_⟩
  · rintro e he
    rcases Entries.mem_put he with rfl | he
    · exact .inr hn
    · exact h.values e he
  · rintro c hc
    rcases List.mem_append.mp (List.mem_of_mem_drop hc) with hc | hc
    · exact h.history c hc
    · rw [List.mem_singleton.mp hc]
      exact .inr hn

theorem react {s' : Store} {reaction : Reaction} (h : Writes names before s)
    (hr : s.react reaction = .ok s') : Writes names before s' := by
  cases reaction with
  | write name => cases hr
  | clear =>
    cases hr
    exact ⟨fun _ he => absurd he List.not_mem_nil, fun _ hc => absurd hc List.not_mem_nil⟩
  | record | cancel | unsubscribe =>
    cases hr
    exact ⟨h.values, h.history⟩

theorem notify (guard : Guard) {change : Change} (heard : List Delivery) (listeners : List Listener)
    (h : Writes names before s) :
    Writes names before (Store.notify guard change s heard listeners).store := by
  induction listeners generalizing s heard with
  | nil => exact h
  | cons l later ih =>
    rw [Store.notify]
    split
    · next hr => exact ih _ (h.react hr)
    · exact h

/-- A write bears the name of the variable that is written. -/
theorem set (h : Writes names before s) (guard : Guard) {name : String} (hn : names name)
    (value : Value) : Writes names before (s.set guard name value).store := by
  unfold Store.set
  rcases guard.check (Check.state name value) with ⟨violation | ⟨⟩, guard⟩
  · exact h
  · exact notify guard [] s.listeners (h.commit hn)

end Writes

theorem notify_heard (guard : Guard) (change : Change) (s : Store) (heard : List Delivery)
    (listeners : List Listener) :
    ∀ d ∈ (notify guard change s heard listeners).heard, d ∈ heard ∨ d.change = change := by
  induction listeners generalizing s heard with
  | nil => exact fun _ h => .inl h
  | cons l later ih =>
    have told : ∀ d ∈ heard ++ [⟨l, change⟩], d ∈ heard ∨ d.change = change := by
      rintro d hd
      rcases List.mem_append.mp hd with hd | hd
      · exact .inl hd
      · rw [List.mem_singleton.mp hd]
        exact .inr rfl
    rw [notify]
    split
    · rintro d hd
      rcases ih _ _ d hd with hd | hd
      · exact told d hd
      · exact .inr hd
    · exact told

/-- Listeners hear of the variable that is written, and of no other one. -/
theorem set_heard (s : Store) (guard : Guard) (name : String) (value : Value) :
    ∀ d ∈ (s.set guard name value).heard, d.change.name = name := by
  unfold set
  rcases guard.check (Check.state name value) with ⟨violation | ⟨⟩, guard⟩
  · exact fun _ h => absurd h List.not_mem_nil
  · rintro d hd
    rcases notify_heard _ _ _ _ _ d hd with hd | hd
    · exact absurd hd List.not_mem_nil
    · rw [hd]
      rfl

/-! ## Listeners -/

theorem notify_listeners (guard : Guard) (change : Change) {s : Store} (heard : List Delivery)
    (listeners : List Listener) :
    (notify guard change s heard listeners).store.listeners ⊆ s.listeners := by
  induction listeners generalizing s heard with
  | nil => exact List.Subset.refl _
  | cons l later ih =>
    rw [notify]
    split
    · next t hr =>
      refine List.Subset.trans (ih (s := t) _) ?_
      cases hl : l.reaction with
      | write name => rw [hl] at hr; cases hr
      | unsubscribe key => rw [hl] at hr; cases hr; exact List.filter_sublist.subset
      | record | cancel | clear => rw [hl] at hr; cases hr; exact List.Subset.refl _
    · exact List.Subset.refl _

/-- A write adds no listener. -/
theorem set_listeners (s : Store) (guard : Guard) (name : String) (value : Value) :
    (s.set guard name value).store.listeners ⊆ s.listeners := by
  unfold set
  rcases guard.check (Check.state name value) with ⟨violation | ⟨⟩, guard⟩
  · exact List.Subset.refl _
  · exact notify_listeners _ _ _ s.listeners

/-- A write leaves the policy of the guard as it is. -/
theorem set_policy (s : Store) (guard : Guard) (name : String) (value : Value) :
    (s.set guard name value).guard.policy = guard.policy := by
  have kept := guard.check_policy (Check.state name value)
  unfold set
  rcases hc : guard.check (Check.state name value) with ⟨violation | ⟨⟩, after⟩
  · rwa [hc] at kept
  · rw [hc] at kept
    exact (congrArg Guard.policy (notify_guard _ _ _ _ _)).trans kept

/-! ## Why writes fail -/

theorem notify_error {guard : Guard} {change : Change} {s : Store} {heard : List Delivery}
    {listeners : List Listener} {e : RunError}
    (h : (notify guard change s heard listeners).result = .error e) :
    ∃ l ∈ listeners, ∃ name, l.reaction = .write name ∧ e = .listenerWrite name := by
  induction listeners generalizing s heard with
  | nil => cases h
  | cons l later ih =>
    rw [notify] at h
    split at h
    · obtain ⟨writer, hm, hw⟩ := ih h
      exact ⟨writer, List.mem_cons_of_mem _ hm, hw⟩
    · next hr =>
      cases h
      refine ⟨l, List.mem_cons_self, ?_⟩
      cases hl : l.reaction with
      | write name => rw [hl] at hr; cases hr; exact ⟨name, rfl, rfl⟩
      | _ => rw [hl] at hr; cases hr

/-- A write fails because the guard refuses it, or because a listener writes. -/
theorem set_error {s : Store} {guard : Guard} {name : String} {value : Value} {e : RunError}
    (h : (s.set guard name value).result = .error e) :
    (∃ v, (guard.check (Check.state name value)).1 = .error v ∧ e = .refused v) ∨
      ∃ l ∈ s.listeners, ∃ name, l.reaction = .write name ∧ e = .listenerWrite name := by
  unfold set at h
  rcases hc : guard.check (Check.state name value) with ⟨violation | ⟨⟩, guard'⟩
  · rw [hc] at h
    cases h
    exact .inl ⟨violation, rfl, rfl⟩
  · rw [hc] at h
    exact .inr (notify_error h)

/-! ## Writes that nobody hears of -/

theorem has_commit (s : Store) (change : Change) (name : String) :
    (s.commit change).has name = (s.has name || change.name == name) :=
  Entries.has_put s.values change.name change.new name

/-- Without listeners a write makes the change, or it is refused and the store stays as it is. -/
theorem set_unheard {s : Store} (quiet : s.listeners = []) (guard : Guard) (name : String) (value : Value) :
    (∃ change, (s.set guard name value).result = .ok change ∧
        (s.set guard name value).store = s.commit (s.changeTo name value)) ∨
      ∃ violation, (s.set guard name value).result = .error (.refused violation) ∧
        (s.set guard name value).store = s := by
  unfold set
  rcases guard.check (Check.state name value) with ⟨violation | ⟨⟩, after⟩
  · exact .inr ⟨violation, rfl, rfl⟩
  · left
    dsimp only
    rw [quiet]
    exact ⟨_, rfl, rfl⟩

end Store

end Screenplay
