/-
What a parser has read when it succeeds. A parser under a policy leaves the policy of its guard and the
number of declared variables alone, wherever it ends, and what it reads has a property: that of its
checks, which have all passed, and those of the parts that it is put together from. Parsers that
declare variables are followed apart, with the number of variables before and after.
-/
import Screenplay.Proofs.Guard.Enforcement
import Screenplay.Proofs.Parse.Uniform

namespace Screenplay.Parse

variable {policy : Policy} {α β σ : Type}

/-! ## Parsers that declare nothing -/

/-- A parser under a policy that leaves the policy and the number of declared variables alone, and
reads something with a property whenever it succeeds. -/
def Reads (policy : Policy) (m : Parse α) (Q : α → Prop) : Prop :=
  ∀ source s, s.guard.policy = policy →
    (m source s).2.guard.policy = policy ∧ (m source s).2.declared = s.declared ∧
      ∀ a, (m source s).1 = .ok a → Q a

namespace Reads

variable {P Q : α → Prop} {R : β → Prop}

/-! ### Steps -/

/-- A step that moves through the tokens at most. -/
theorem of_step {m : Parse α}
    (h : ∀ source s, ∃ outcome cursor, m source s = (outcome, { s with cursor })) :
    Reads policy m fun _ => True := by
  intro source s hs
  obtain ⟨outcome, cursor, h⟩ := h source s
  rw [h]
  exact ⟨hs, rfl, fun _ _ => trivial⟩

theorem mono {m : Parse α} (h : Reads policy m P) (hpq : ∀ a, P a → Q a) : Reads policy m Q := by
  intro source s hs
  obtain ⟨hp, hd, hq⟩ := h source s hs
  exact ⟨hp, hd, fun a ha => hpq a (hq a ha)⟩

theorem pure {a : α} (h : Q a) : Reads policy (Pure.pure a) Q := by
  intro source s hs
  refine ⟨hs, rfl, ?_⟩
  rintro b hb
  cases hb
  exact h

theorem throw (e : Failure) : Reads policy (MonadExcept.throw e) Q := by
  intro source s hs
  refine ⟨hs, rfl, ?_⟩
  rintro a ha
  cases ha

theorem read : Reads policy (MonadReader.read : Parse Source) fun _ => True :=
  of_step fun _ s => ⟨_, s.cursor, rfl⟩

theorem get : Reads policy (MonadState.get : Parse ParseState) fun _ => True :=
  of_step fun _ s => ⟨_, s.cursor, rfl⟩

theorem current : Reads policy current fun _ => True :=
  of_step fun _ s => ⟨_, s.cursor, rfl⟩

theorem previous : Reads policy previous fun _ => True :=
  of_step fun _ s => ⟨_, s.cursor, rfl⟩

theorem following : Reads policy following fun _ => True :=
  of_step fun _ s => ⟨_, s.cursor, rfl⟩

theorem goTo (cursor : Cursor) : Reads policy (goTo cursor) fun _ => True :=
  of_step fun _ _ => ⟨_, cursor, rfl⟩

theorem advance : Reads policy advance fun _ => True :=
  of_step fun _ s => ⟨_, s.cursor.next, rfl⟩

theorem tooDeep : Reads policy tooDeep Q :=
  throw _

/-- Settling what a guard makes of something: it keeps its policy, and lets it pass under a
condition only. -/
theorem settle (use : Guard → Except Violation Unit × Guard) {condition : Prop}
    (h : ∀ guard, guard.policy = policy →
      (use guard).2.policy = policy ∧ ((use guard).1 = .ok () → condition)) :
    Reads policy (do Parse.settle (use (← MonadState.get).guard)) fun _ => condition := by
  intro source s hs
  obtain ⟨hp, hc⟩ := h s.guard hs
  show (Parse.settle (use s.guard) source s).2.guard.policy = policy ∧
    (Parse.settle (use s.guard) source s).2.declared = s.declared ∧
      ∀ a, (Parse.settle (use s.guard) source s).1 = .ok a → condition
  rcases hu : use s.guard with ⟨violation | ⟨⟩, guard⟩
  · rw [hu] at hp
    refine ⟨hp, rfl, ?_⟩
    rintro a ha
    cases ha
  · rw [hu] at hp hc
    exact ⟨hp, rfl, fun _ _ => hc rfl⟩

/-- Checks that have been applied have passed. -/
theorem check (checks : List Check) :
    Reads policy (check checks) fun _ => ∀ c ∈ checks, c.Passes policy.enforced := by
  refine settle (·.check checks) fun guard hg => ⟨?_, fun hok => ?_⟩
  · rw [Guard.check_policy, hg]
  · rw [← hg]
    exact Guard.check_eq_ok.mp hok

/-! ### Composition -/

theorem bind {m : Parse α} {f : α → Parse β} (hm : Reads policy m P)
    (hf : ∀ a, P a → Reads policy (f a) R) : Reads policy (m >>= f) R := by
  intro source s hs
  obtain ⟨hp, hd, hq⟩ := hm source s hs
  rw [bind_run]
  rcases hr : m source s with ⟨e | a, t⟩
  · rw [hr] at hp hd
    refine ⟨hp, hd, ?_⟩
    rintro b hb
    cases hb
  · rw [hr] at hp hd hq
    obtain ⟨hp', hd', hq'⟩ := hf a (hq a rfl) source t hp
    exact ⟨hp', hd'.trans hd, hq'⟩

/-- A value that is at hand is what the rest goes on with. -/
theorem pure_bind {a : α} {f : α → Parse β} (h : Reads policy (f a) R) :
    Reads policy (Pure.pure a >>= f) R := h

theorem discard {m : Parse α} (hm : Reads policy m P) : Reads policy (discard m) fun _ => True :=
  hm.bind fun _ _ => pure trivial

theorem seqRight {m : Parse α} {n : Parse β} (hm : Reads policy m P) (hn : Reads policy n R) :
    Reads policy (m *> n) R :=
  hm.bind fun _ _ => hn

/-- Whichever of two parsers is the one that reads, the property holds. -/
theorem orElseFrom {first second : Parse α} (hf : Reads policy first Q)
    (hs : Reads policy second Q) : Reads policy (orElseFrom first second) Q := by
  intro source s h
  obtain ⟨hp, hd, hq⟩ := hf source s h
  by_cases hparse : ∃ e, (first source s).1 = .error (.parse e)
  · obtain ⟨e, he⟩ := hparse
    rcases hr : first source s with ⟨r, failed⟩
    rw [hr] at he hp hd
    cases he
    rw [orElseFrom_run_parse hr]
    obtain ⟨hp', hd', hq'⟩ := hs source { failed with cursor := s.cursor } hp
    exact ⟨hp', hd'.trans hd, hq'⟩
  · rw [orElseFrom_run_other fun e he => hparse ⟨e, he⟩]
    exact ⟨hp, hd, hq⟩

/-! ### Tokens -/

theorem atSymbol (symbol : String) : Reads policy (atSymbol symbol) fun _ => True :=
  current.bind fun _ _ => pure trivial

theorem atWord (word : String) : Reads policy (atWord word) fun _ => True :=
  current.bind fun _ _ => pure trivial

theorem atEnding : Reads policy atEnding fun _ => True :=
  current.bind fun _ _ => pure trivial

theorem failAt (token : Token) (cause : ParseCause) : Reads policy (failAt token cause) Q :=
  read.bind fun _ _ => throw _

theorem fail (cause : ParseCause) : Reads policy (fail cause) Q :=
  current.bind fun _ _ => failAt _ _

theorem expectSymbol (symbol : String) : Reads policy (expectSymbol symbol) fun _ => True := by
  refine (atSymbol symbol).bind fun b _ => ?_
  split
  · exact discard advance
  · exact fail _

theorem expectWord (word : String) : Reads policy (expectWord word) fun _ => True := by
  refine (atWord word).bind fun b _ => ?_
  split
  · exact advance
  · exact fail _

theorem skipSymbol (symbol : String) : Reads policy (skipSymbol symbol) fun _ => True := by
  refine (atSymbol symbol).bind fun b _ => ?_
  split
  · exact (discard advance).bind fun _ _ => pure trivial
  · exact pure trivial

theorem word (what : String) : Reads policy (word what) fun _ => True := by
  refine current.bind fun token _ => ?_
  split
  · exact advance
  · exact fail _

theorem string (what : String) : Reads policy (string what) fun _ => True := by
  refine current.bind fun token _ => ?_
  split
  · exact advance
  · exact fail _

theorem name (what : String) : Reads policy (name what) fun _ => True := by
  refine current.bind fun token _ => ?_
  dsimp only
  split
  · exact advance.bind fun _ _ => pure trivial
  · exact fail _

/-! ### Loops -/

/-- What a round of a loop leads to, with a property that its rounds keep. -/
def OnRound (I : σ → Prop) : Round σ → Prop
  | .again s | .done s => I s

variable {I : σ → Prop}

theorem roundsUpTo {round : σ → Parse (Round σ)}
    (h : ∀ s, I s → Reads policy (round s) (OnRound I)) :
    ∀ n s, I s → Reads policy (roundsUpTo round n s) I
  | 0, _, _ => throw _
  | n + 1, s, hs => by
    refine (h s hs).bind fun r hr => ?_
    cases r with
    | again s => exact roundsUpTo h n s hr
    | done s => exact pure hr

theorem rounds {round : σ → Parse (Round σ)}
    (h : ∀ s, I s → Reads policy (round s) (OnRound I)) {s : σ} (hs : I s) :
    Reads policy (rounds round s) I := fun source state =>
  roundsUpTo h (state.cursor.later.length + 1) s hs source state

theorem itemsUntil {closing : String} {item : σ → Parse σ}
    (h : ∀ s, I s → Reads policy (item s) I) {s : σ} (hs : I s) :
    Reads policy (itemsUntil closing item s) I := by
  refine rounds (fun s hs => (atSymbol closing).bind fun b _ => ?_) hs
  split
  · exact pure hs
  · exact (h s hs).bind fun _ ht => pure ht

theorem itemsBetweenCommas {closing : String} {item : σ → Parse σ}
    (h : ∀ s, I s → Reads policy (item s) I) {s : σ} (hs : I s) :
    Reads policy (itemsBetweenCommas closing item s) I := by
  refine rounds (fun s hs => (atSymbol closing).bind fun b _ => ?_) hs
  split
  · exact pure hs
  · refine (h s hs).bind fun t ht => (skipSymbol ",").bind fun comma _ => ?_
    split
    · exact pure ht
    · exact pure ht

theorem itemsFrom {start : String} {item : σ → Parse σ}
    (h : ∀ s, I s → Reads policy (item s) I) {s : σ} (hs : I s) :
    Reads policy (itemsFrom start item s) I := by
  refine rounds (fun s hs => (atWord start).bind fun b _ => ?_) hs
  split
  · exact (h s hs).bind fun _ ht => pure ht
  · exact pure hs

/-- Every item of a list has the property of the items read. -/
theorem adding {item : Parse α} (h : Reads policy item Q) {items : List α} (hi : ∀ a ∈ items, Q a) :
    Reads policy (adding item items) fun items => ∀ a ∈ items, Q a := by
  refine h.bind fun a ha => pure ?_
  rintro b hb
  rcases List.mem_append.mp hb with hb | hb
  · exact hi b hb
  · rw [List.mem_singleton.mp hb]
    exact ha

theorem beforeEnding {item : Parse α} (h : Reads policy item Q) :
    Reads policy (beforeEnding item) Q := by
  refine atEnding.bind fun b _ => ?_
  split
  · exact fail _
  · exact h

theorem braced {item : Parse α} (h : Reads policy item Q) :
    Reads policy (braced item) fun items => ∀ a ∈ items, Q a := by
  refine (expectSymbol _).bind fun _ _ => ?_
  refine (itemsUntil (fun items hi => adding (beforeEnding h) hi) ?_).bind fun items hi => ?_
  · exact fun a ha => absurd ha List.not_mem_nil
  · exact (expectSymbol _).bind fun _ _ => pure hi

end Reads

/-! ## Parsers that declare variables -/

/-- A parser under a policy that starts with some number of declared variables: when it succeeds, the
policy is as before, and a property holds of what it has read and the number of variables then. -/
def Declares (policy : Policy) (n : Nat) (m : Parse α) (Q : α → Nat → Prop) : Prop :=
  ∀ source s, s.guard.policy = policy → s.declared = n → ∀ a t, m source s = (.ok a, t) →
    t.guard.policy = policy ∧ Q a t.declared

namespace Declares

variable {n : Nat} {P Q : α → Nat → Prop} {R : β → Nat → Prop}

theorem pure {a : α} (h : Q a n) : Declares policy n (Pure.pure a) Q := by
  intro source s hs hn b t hr
  cases hr
  rw [hn]
  exact ⟨hs, h⟩

theorem bind {m : Parse α} {f : α → Parse β} (hm : Declares policy n m P)
    (hf : ∀ a k, P a k → Declares policy k (f a) R) : Declares policy n (m >>= f) R := by
  intro source s hs hn b t hr
  rw [bind_run] at hr
  rcases hm' : m source s with ⟨e | a, u⟩
  · rw [hm'] at hr
    cases hr
  · rw [hm'] at hr
    obtain ⟨hp, hq⟩ := hm source s hs hn a u hm'
    exact hf a _ hq source u hp rfl b t hr

/-- A value that is at hand is what the rest goes on with. -/
theorem pure_bind {a : α} {f : α → Parse β} (h : Declares policy n (f a) R) :
    Declares policy n (Pure.pure a >>= f) R := h

/-- A parser that always fails reads nothing. -/
theorem of_failing {m : Parse α} (h : Reads policy m fun _ => False) : Declares policy n m Q := by
  intro source s hs hn a t hr
  obtain ⟨-, -, hf⟩ := h source s hs
  rw [hr] at hf
  exact (hf a rfl).elim

/-- A parser that declares nothing leaves the number as it is. -/
theorem of_reads {m : Parse α} {Q : α → Prop} (h : Reads policy m Q) :
    Declares policy n m fun a k => k = n ∧ Q a := by
  intro source s hs hn a t hr
  obtain ⟨hp, hd, hq⟩ := h source s hs
  rw [hr] at hp hd hq
  exact ⟨hp, hd.trans hn, hq a rfl⟩

/-- What follows a parser that declares nothing starts with the same number. -/
theorem after {m : Parse α} {f : α → Parse β} {Q : α → Prop} (hm : Reads policy m Q)
    (hf : ∀ a, Q a → Declares policy n (f a) R) : Declares policy n (m >>= f) R :=
  (of_reads hm).bind fun a _ ⟨hk, ha⟩ => hk ▸ hf a ha

/-! ### Loops -/

variable {I : σ → Nat → Prop}

/-- What a round of a loop leads to, with a property that its rounds keep. -/
def OnRound (I : σ → Nat → Prop) (r : Round σ) (k : Nat) : Prop := Reads.OnRound (I · k) r

theorem roundsUpTo {round : σ → Parse (Round σ)}
    (h : ∀ s k, I s k → Declares policy k (round s) (OnRound I)) :
    ∀ rounds s k, I s k → Declares policy k (roundsUpTo round rounds s) I
  | 0, _, _, _ => by
    intro source s hs hn a t hr
    cases hr
  | rounds + 1, s, k, hs => by
    refine (h s k hs).bind fun r j hr => ?_
    cases r with
    | again s => exact roundsUpTo h rounds s j hr
    | done s => exact pure hr

theorem rounds {round : σ → Parse (Round σ)}
    (h : ∀ s k, I s k → Declares policy k (round s) (OnRound I)) {s : σ} (hs : I s n) :
    Declares policy n (rounds round s) I := fun source state =>
  roundsUpTo h (state.cursor.later.length + 1) s n hs source state

theorem itemsUntil {closing : String} {item : σ → Parse σ}
    (h : ∀ s k, I s k → Declares policy k (item s) I) {s : σ} (hs : I s n) :
    Declares policy n (itemsUntil closing item s) I := by
  refine rounds (fun s k hs => after (.atSymbol closing) fun b _ => ?_) hs
  split
  · exact pure hs
  · exact (h s k hs).bind fun _ _ ht => pure ht

theorem itemsFrom {start : String} {item : σ → Parse σ}
    (h : ∀ s k, I s k → Declares policy k (item s) I) {s : σ} (hs : I s n) :
    Declares policy n (itemsFrom start item s) I := by
  refine rounds (fun s k hs => after (.atWord start) fun b _ => ?_) hs
  split
  · exact (h s k hs).bind fun _ _ ht => pure ht
  · exact pure hs

end Declares

end Screenplay.Parse
