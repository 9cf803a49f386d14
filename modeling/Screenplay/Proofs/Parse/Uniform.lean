/-
Uniform parsers: all that such a parser does with its guard is to have some checks applied, and
neither the checks nor what it comes to when they pass depend on the guard. Two runs of a uniform
parser under different guards therefore part only where a check fails under one of them. Everything
that parsers are put together from keeps them uniform.
-/
import Screenplay.Proofs.Guard.Checking
import Screenplay.Proofs.Parse.Rules

namespace Screenplay.Parse

/-! ## Traces -/

/-- A run of a parser with the guard left out: the checks that it has applied, and its outcome and
its place if they pass. -/
structure Trace (α : Type) where
  checks : List Check
  outcome : Except Failure α
  cursor : Cursor
  declared : Nat

/-- A result is that of a trace under a guard. Where a check fails, nothing is said of the place. -/
structure Trace.Gives {α : Type} (t : Trace α) (guard : Guard)
    (result : Except Failure α × ParseState) : Prop where
  passed : ∀ guard', guard.check t.checks = (.ok (), guard') →
    result = (t.outcome, ⟨t.cursor, guard', t.declared⟩)
  refused : ∀ violation guard', guard.check t.checks = (.error violation, guard') →
    result.1 = .error (.refused violation) ∧ result.2.guard = guard'

/-- A trace and what follows it. -/
def Trace.andThen {α β : Type} (t : Trace α) (u : Trace β) : Trace β :=
  { u with checks := t.checks ++ u.checks }

theorem Trace.gives_andThen {α β : Type} {t : Trace α} {u : Trace β} {guard : Guard}
    {result : Except Failure β × ParseState}
    (hr : ∀ violation guard', guard.check t.checks = (.error violation, guard') →
      result.1 = .error (.refused violation) ∧ result.2.guard = guard')
    (hp : ∀ guard', guard.check t.checks = (.ok (), guard') → u.Gives guard' result) :
    (t.andThen u).Gives guard result := by
  rcases hc : guard.check t.checks with ⟨v | _, g⟩
  · have ha : guard.check (t.andThen u).checks = (.error v, g) := by
      rw [andThen, Guard.check_append, hc]
    constructor
    · intro g' h; rw [ha] at h; cases h
    · intro v' g' h; rw [ha] at h; cases h; exact hr v g hc
  · have ha : guard.check (t.andThen u).checks = g.check u.checks := by
      rw [andThen, Guard.check_append, hc]
    have hu := hp g hc
    exact ⟨fun g' h => hu.passed g' (ha ▸ h), fun v g' h => hu.refused v g' (ha ▸ h)⟩

/-- A parser whose runs from one place are one trace under any guard. -/
def Uniform {α : Type} (m : Parse α) : Prop :=
  ∀ source cursor declared, ∃ t : Trace α, ∀ guard,
    t.Gives guard (m source ⟨cursor, guard, declared⟩)

variable {α β σ : Type}

/-! ## Running the steps of a parser -/

theorem bind_run (m : Parse α) (f : α → Parse β) (source : Source) (s : ParseState) :
    (m >>= f) source s =
      match m source s with
      | (.ok a, s) => f a source s
      | (.error e, s) => (.error e, s) := by
  show (match m source s with
    | (r, s) => ExceptT.bindCont (fun a => f a source) r s) = _
  rcases m source s with ⟨_ | _, _⟩ <;> rfl

theorem bind_run_error {m : Parse α} {source : Source} {s : ParseState} {e : Failure}
    (h : (m source s).1 = .error e) (f : α → Parse β) :
    (m >>= f) source s = (.error e, (m source s).2) := by
  rw [bind_run]
  rcases hr : m source s with ⟨r, s'⟩
  rw [hr] at h
  cases h; rfl

theorem bind_run_ok {m : Parse α} {source : Source} {s t : ParseState} {a : α}
    (h : m source s = (.ok a, t)) (f : α → Parse β) : (m >>= f) source s = f a source t := by
  rw [bind_run, h]

theorem read_run (source : Source) (s : ParseState) : (read : Parse Source) source s = (.ok source, s) :=
  rfl

theorem get_run (source : Source) (s : ParseState) : (get : Parse ParseState) source s = (.ok s, s) :=
  rfl

theorem goTo_run (cursor : Cursor) (source : Source) (s : ParseState) :
    goTo cursor source s = (.ok (), { s with cursor }) :=
  rfl

theorem current_run (source : Source) (s : ParseState) :
    Parse.current source s = (.ok s.cursor.current, s) :=
  rfl

theorem previous_run (source : Source) (s : ParseState) : previous source s = (.ok s.cursor.last, s) :=
  rfl

/-- Checks that are applied come to nothing but a change of the guard. -/
theorem check_run_ok {checks : List Check} {source : Source} {s t : ParseState} :
    check checks source s = (.ok (), t) ↔
      (s.guard.check checks).1 = .ok () ∧ t = { s with guard := (s.guard.check checks).2 } := by
  change settle (s.guard.check checks) source s = (.ok (), t) ↔ _
  rcases s.guard.check checks with ⟨violation | ⟨⟩, guard⟩
  · exact iff_of_false (by rintro ⟨⟩) (by rintro ⟨⟨⟩, -⟩)
  · constructor
    · rintro ⟨⟩
      exact ⟨rfl, rfl⟩
    · rintro ⟨-, rfl⟩
      rfl

theorem orElseFrom_run_parse {first : Parse α} {source : Source} {s failed : ParseState}
    {e : ParseError} (h : first source s = (.error (.parse e), failed)) (second : Parse α) :
    orElseFrom first second source s = second source { failed with cursor := s.cursor } := by
  unfold orElseFrom
  rw [h]

theorem orElseFrom_run_other {first : Parse α} {source : Source} {s : ParseState}
    (h : ∀ e, (first source s).1 ≠ .error (.parse e)) (second : Parse α) :
    orElseFrom first second source s = first source s := by
  unfold orElseFrom
  split
  · next e failed heq => rw [heq] at h; exact absurd rfl (h e)
  · rfl

/-- A program that has been read is what the parser comes to on the tokens of the text. -/
theorem run_of_parse {level : Level} {source : Source} {p : Program}
    (h : (Program.parse level source).1 = .ok p) :
    ∃ tokens state, source.tokens = .ok tokens ∧
      Program.parser source ⟨.ofTokens tokens, .ofLevel level, 0⟩ = (.ok p, state) := by
  rw [Program.parse, Policy.read] at h
  cases ht : source.tokens with
  | error failure =>
    rw [ht] at h
    cases h
  | ok tokens =>
    rw [ht] at h
    dsimp only [Parse.runOn] at h
    rcases hr : Program.parser source ⟨.ofTokens tokens, ⟨Policy.ofLevel level, []⟩, 0⟩ with ⟨e | q, state⟩
    · rw [hr] at h
      cases h
    · rw [hr] at h
      cases h
      exact ⟨tokens, state, rfl, hr⟩

/-- A test that the outcome of reading passes is passed by a program that has been read. -/
theorem exists_parsed {level : Level} {source : Source} {test : Program → Bool}
    (h : (Program.parse level source).1.toOption.any test = true) :
    ∃ p, (Program.parse level source).1 = .ok p ∧ test p = true := by
  cases hr : (Program.parse level source).1 with
  | error e => rw [hr] at h; cases h
  | ok p => rw [hr] at h; exact ⟨p, rfl, h⟩

/-! ## Steps without checks -/

namespace Uniform

/-- A step that has nothing checked and leaves the guard alone. -/
theorem of_step {m : Parse α}
    (h : ∀ source cursor declared, ∃ outcome cursor' declared', ∀ guard,
      m source ⟨cursor, guard, declared⟩ = (outcome, ⟨cursor', guard, declared'⟩)) :
    Uniform m := by
  intro source cursor declared
  obtain ⟨outcome, cursor', declared', h⟩ := h source cursor declared
  refine ⟨⟨[], outcome, cursor', declared'⟩, fun guard => ⟨fun g hc => ?_, fun v g hc => ?_⟩⟩
  · cases hc; exact h guard
  · cases hc

theorem pure (a : α) : Uniform (Pure.pure a : Parse α) :=
  of_step fun _ _ _ => ⟨_, _, _, fun _ => rfl⟩

theorem throw (e : Failure) : Uniform (MonadExcept.throw e : Parse α) :=
  of_step fun _ _ _ => ⟨_, _, _, fun _ => rfl⟩

theorem read : Uniform (MonadReader.read : Parse Source) :=
  of_step fun _ _ _ => ⟨_, _, _, fun _ => rfl⟩

theorem current : Uniform current :=
  of_step fun _ cursor declared => ⟨.ok cursor.current, cursor, declared, fun _ => rfl⟩

theorem previous : Uniform previous :=
  of_step fun _ cursor declared => ⟨.ok cursor.last, cursor, declared, fun _ => rfl⟩

theorem following : Uniform following :=
  of_step fun _ cursor declared => ⟨.ok cursor.following, cursor, declared, fun _ => rfl⟩

theorem goTo (cursor : Cursor) : Uniform (goTo cursor) :=
  of_step fun _ _ declared => ⟨.ok (), cursor, declared, fun _ => rfl⟩

theorem advance : Uniform advance :=
  of_step fun _ cursor declared => ⟨.ok cursor.current, cursor.next, declared, fun _ => rfl⟩

theorem tooDeep : Uniform (tooDeep : Parse α) :=
  throw _

/-! ## Steps with checks -/

/-- Settling what a guard makes of something that amounts to some checks. -/
theorem settle (use : Guard → Except Violation Unit × Guard) (checks : List Check)
    (h : ∀ guard, use guard = guard.check checks) :
    Uniform (do Parse.settle (use (← get).guard)) := by
  intro source cursor declared
  refine ⟨⟨checks, .ok (), cursor, declared⟩, fun guard => ?_⟩
  show Trace.Gives _ guard (Parse.settle (use guard) source ⟨cursor, guard, declared⟩)
  rw [h]
  constructor
  · intro g hc; rw [hc]; rfl
  · intro v g hc; rw [hc]; exact ⟨rfl, rfl⟩

/-- Settling what every guard refuses. -/
theorem settle_error (use : Guard → Except Violation Unit × Guard) (violation : Violation)
    (h : ∀ guard, use guard = (.error violation, guard)) :
    Uniform (do Parse.settle (use (← get).guard)) := by
  refine of_step fun _ cursor declared => ⟨.error (.refused violation), cursor, declared, fun guard => ?_⟩
  show Parse.settle (use guard) _ _ = _
  rw [h]; rfl

theorem check (checks : List Check) : Uniform (check checks) :=
  settle (·.check checks) checks fun _ => rfl

/-! ## Composition -/

theorem bind {m : Parse α} {f : α → Parse β} (hm : Uniform m) (hf : ∀ a, Uniform (f a)) :
    Uniform (m >>= f) := by
  intro source cursor declared
  obtain ⟨t, ht⟩ := hm source cursor declared
  cases ho : t.outcome with
  | error e =>
    -- the second parser is not reached, so the checks of the first are all there are
    refine ⟨⟨t.checks, .error e, t.cursor, t.declared⟩, fun guard => ⟨fun g hc => ?_, fun v g hc => ?_⟩⟩
    · rw [bind_run, (ht guard).passed g hc, ho]
    · have h := (ht guard).refused v g hc
      rw [bind_run_error h.1]
      exact ⟨rfl, h.2⟩
  | ok a =>
    obtain ⟨u, hu⟩ := hf a source t.cursor t.declared
    refine ⟨t.andThen u, fun guard => Trace.gives_andThen (fun v g hc => ?_) fun g hc => ?_⟩
    · have h := (ht guard).refused v g hc
      rw [bind_run_error h.1]
      exact ⟨rfl, h.2⟩
    · rw [bind_run, (ht guard).passed g hc, ho]
      exact hu g

/-- What the first parser had checked before it failed has been checked, so the checks of both are
applied. -/
theorem orElseFrom {first second : Parse α} (hf : Uniform first) (hs : Uniform second) :
    Uniform (orElseFrom first second) := by
  intro source cursor declared
  obtain ⟨t, ht⟩ := hf source cursor declared
  have refused : ∀ guard violation guard', guard.check t.checks = (.error violation, guard') →
      (Parse.orElseFrom first second source ⟨cursor, guard, declared⟩).1 = .error (.refused violation) ∧
        (Parse.orElseFrom first second source ⟨cursor, guard, declared⟩).2.guard = guard' := by
    intro guard v g hc
    have h := (ht guard).refused v g hc
    rw [orElseFrom_run_other (fun e => by rw [h.1]; simp)]
    exact h
  -- whether the second parser is tried is a matter of the outcome, not of the guard
  by_cases hp : ∃ e, t.outcome = .error (.parse e)
  · obtain ⟨e, ho⟩ := hp
    obtain ⟨u, hu⟩ := hs source cursor t.declared
    refine ⟨t.andThen u, fun guard => Trace.gives_andThen (refused guard) fun g hc => ?_⟩
    have h := (ht guard).passed g hc
    rw [ho] at h
    rw [orElseFrom_run_parse h]
    exact hu g
  · refine ⟨t, fun guard => ⟨fun g hc => ?_, refused guard⟩⟩
    have h := (ht guard).passed g hc
    rw [orElseFrom_run_other (fun e => by rw [h]; exact fun ho => hp ⟨e, ho⟩)]
    exact h

/-! ## The rules -/

theorem steps : Steps (fun _ => True) fun _ => Uniform where
  any h := h
  slow h := h
  pure := pure
  input e := throw (.input e)
  refuse violation := throw (.refused violation)
  failAt _ _ := bind read fun _ => throw _
  bind := bind
  later := bind
  read := read
  previous := previous
  following := following
  current hf := bind current fun t => hf t trivial
  advance hf := bind advance fun t => hf t trivial
  check := check
  orElseFrom := orElseFrom

theorem roundsUpTo {round : σ → Parse (Round σ)} (h : ∀ s, Uniform (round s)) :
    ∀ n s, Uniform (roundsUpTo round n s)
  | 0, _ => throw _
  | n + 1, s => by
    refine bind (h s) fun r => ?_
    cases r with
    | again s => exact roundsUpTo h n s
    | done s => exact pure _

/-- The number of rounds that a loop may take depends on the place alone. -/
theorem rounds {round : σ → Parse (Round σ)} (h : ∀ s, Uniform (round s)) (s : σ) :
    Uniform (rounds round s) := fun source cursor declared =>
  roundsUpTo h (cursor.later.length + 1) s source cursor declared

theorem itemsUntil {closing : String} {item : σ → Parse σ} (h : ∀ s, Uniform (item s)) (s : σ) :
    Uniform (itemsUntil closing item s) := by
  refine rounds (fun s => bind (steps.atSymbol closing) fun b => ?_) s
  split
  · exact pure _
  · exact bind (h s) fun _ => pure _

theorem itemsBetweenCommas {closing : String} {item : σ → Parse σ} (h : ∀ s, Uniform (item s))
    (s : σ) : Uniform (itemsBetweenCommas closing item s) := by
  refine rounds (fun s => bind (steps.atSymbol closing) fun b => ?_) s
  split
  · exact pure _
  · refine bind (h s) fun s => bind (steps.skipSymbol ",") fun comma => ?_
    split
    · exact pure _
    · exact pure _

theorem itemsFrom {start : String} {item : σ → Parse σ} (h : ∀ s, Uniform (item s)) (s : σ) :
    Uniform (itemsFrom start item s) := by
  refine rounds (fun s => bind (steps.atWord start) fun b => ?_) s
  split
  · exact bind (h s) fun _ => pure _
  · exact pure _

theorem embedded {inner : Parse Expr} (hi : Uniform inner) (origin : Token) (source : List Char) :
    Uniform (Expr.parseEmbedded inner origin source) := by
  unfold Expr.parseEmbedded
  split
  · exact throw _
  · next tokens _ =>
    -- the place outside is part of the state, so the steps are looked at for any place
    have h (outside : Cursor) : Uniform (do
        Parse.goTo (.ofTokens (tokens.map ({ · with position := origin.position })))
        let e ← inner
        unless ← atEnding do fail .trailingText
        Parse.goTo outside
        return e) := by
      refine bind (goTo _) fun _ => bind hi fun e => bind steps.atEnding fun b => ?_
      split
      · exact bind (goTo _) fun _ => pure _
      · exact bind (steps.fail (k := .stays) _) fun _ => bind (goTo _) fun _ => pure _
    exact fun source cursor declared => h cursor source cursor declared

/-- Where raw code ends depends on the tokens alone. -/
theorem code : Uniform Action.parseCode := by
  have text (first : Token) : Uniform (do
      let text := (← MonadReader.read).slice first.start (← Parse.previous).stop
      Parse.check (Check.string text "action code")
      return Action.code text) :=
    bind read fun _ => bind previous fun _ => bind (check _) fun _ => pure _
  intro source cursor declared
  obtain ⟨t, ht⟩ := text cursor.current source cursor.skipCode declared
  refine ⟨t, fun guard => ?_⟩
  rw [Action.parseCode, bind_run_ok (current_run source _), bind_run_ok (get_run source _),
    bind_run_ok (goTo_run _ source _)]
  exact ht guard

/-- The number of variables declared so far is part of the state. -/
theorem counted (v : StateVar) : Uniform (do
    modify fun s => { s with declared := s.declared + 1 }
    Parse.check [Check.stateCount (← get).declared]
    return v) := fun source cursor declared =>
  bind (check [Check.stateCount (declared + 1 : Nat)]) (fun _ => pure v) source cursor (declared + 1)

/-- A tree that is nested too deeply is refused whatever the guard; of any other one the number of
nodes is checked. -/
theorem tree (name : String) (ui : Node) :
    Uniform (do Parse.settle ((← get).guard.checkTree name ui)) := by
  cases hc : ui.count with
  | error violation =>
    refine settle_error (·.checkTree name ui) violation fun guard => ?_
    unfold Guard.checkTree
    rw [hc]
  | ok count =>
    refine settle (·.checkTree name ui) [Check.elementCount name count] fun guard => ?_
    unfold Guard.checkTree
    rw [hc]

theorem measured (screen : Screen) : Uniform (do
    Parse.settle ((← get).guard.checkTree screen.name screen.ui)
    return screen) := fun source cursor declared =>
  bind (tree screen.name screen.ui) (fun _ => pure screen) source cursor declared

/-- Every parser of the grammar is uniform: what is checked while a text is read, and what is read if
the checks pass, is the same under every policy. -/
theorem rules : Rules (fun _ => True) fun _ => Uniform where
  toSteps := steps
  itemsUntil := itemsUntil
  itemsBetweenCommas := itemsBetweenCommas
  itemsFrom := itemsFrom
  embedded _ _ hi := embedded hi _ _
  code := code
  counted := counted
  measured := measured

end Uniform

end Screenplay.Parse
