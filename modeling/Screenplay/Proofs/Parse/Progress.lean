/-
Parsing ends. A scanned text ends with its end and ends nowhere before, so a parser that reads on gets
there: every round of every loop reads a token, raw code reads one, and an expression embedded in a
text is shorter than the text. No loop of the grammar is ever stopped before its last round.
-/
import Mathlib.Logic.Function.Iterate
import Screenplay.Proofs.Parse.Grammar
import Screenplay.Proofs.Parse.Uniform
import Screenplay.Proofs.Text.Pieces
import Screenplay.Proofs.Token.Tiling

namespace Screenplay

/-! ## The end of the tokens -/

/-- Tokens of which the last one, and no other, is the end of the text. -/
inductive Ended : List Token → Prop where
  | ending {t : Token} (ends : t.isEnding = true) : Ended [t]
  | cons {t : Token} {later : List Token} (goesOn : t.isEnding = false) (ended : Ended later) :
    Ended (t :: later)

namespace Ended

theorem append {earlier : List Token} (he : ∀ t ∈ earlier, t.isEnding = false) {last : Token}
    (hl : last.isEnding = true) : Ended (earlier ++ [last]) := by
  induction earlier with
  | nil => exact .ending hl
  | cons t earlier ih =>
    obtain ⟨ht, he⟩ := List.forall_mem_cons.mp he
    exact .cons ht (ih he)

theorem map {tokens : List Token} (h : Ended tokens) {f : Token → Token}
    (hf : ∀ t, (f t).isEnding = t.isEnding) : Ended (tokens.map f) := by
  induction h with
  | ending ends => exact .ending ((hf _).trans ends)
  | cons goesOn _ ih => exact .cons ((hf _).trans goesOn) ih

theorem ne_nil {tokens : List Token} (h : Ended tokens) : tokens ≠ [] := by
  cases h <;> exact List.cons_ne_nil _ _

/-- Before the end there is more. -/
theorem later_ne_nil {t : Token} {later : List Token} (h : Ended (t :: later)) (ht : t.isEnding = false) :
    later ≠ [] := by
  cases h with
  | ending ends => simp [ht] at ends
  | cons _ ended => exact ended.ne_nil

/-- What is left of the tokens ends as they do, as long as anything is left. -/
theorem suffix {tokens rest : List Token} (h : Ended tokens) (hs : rest <:+ tokens) (hne : rest ≠ []) :
    Ended rest := by
  induction h with
  | ending ends =>
    rcases List.suffix_cons_iff.mp hs with rfl | hs
    · exact .ending ends
    · exact absurd (List.suffix_nil.mp hs) hne
  | cons goesOn ended ih =>
    rcases List.suffix_cons_iff.mp hs with rfl | hs
    · exact .cons goesOn ended
    · exact ih hs

/-- The tokens of a text, scanned. -/
theorem of_scan {text : List Char} {tokens : List Token} (h : Token.scan text = .ok tokens) :
    Ended tokens := by
  have scans : Token.Scans text 0 (Token.scan text) := Token.scans_scanFrom [] text
  rw [h] at scans
  cases scans with
  | done tiling =>
    refine append (fun t ht => ?_) rfl
    simpa [Token.isEnding] using (tiling.stands t ht).kind

end Ended

theorem Cursor.rest_ofTokens {tokens : List Token} (h : tokens ≠ []) : (Cursor.ofTokens tokens).rest = tokens := by
  cases tokens with
  | nil => exact absurd rfl h
  | cons t ts => rfl

namespace Parse

variable {α β σ : Type}

/-! ## Paces -/

/-- A place that is reached from another one at a pace. -/
def Pace.Leads (k : Pace) (c d : Cursor) : Prop :=
  match k with
  | .stays => d.rest <:+ c.rest
  | .moves => d.rest <:+ c.rest ∧ (c.current.isEnding = false → d.rest <:+ c.later)
  | .advances => d.rest <:+ c.later

namespace Pace

variable {k : Pace} {c d e : Cursor}

theorem Leads.of_advances (h : advances.Leads c d) : k.Leads c d := by
  have hr : d.rest <:+ c.rest := h.trans (List.suffix_cons _ _)
  cases k with
  | stays => exact hr
  | moves => exact ⟨hr, fun _ => h⟩
  | advances => exact h

theorem Leads.stays (h : k.Leads c d) : Pace.stays.Leads c d := by
  cases k with
  | stays => exact h
  | moves => exact h.1
  | advances => exact h.of_advances

/-- Going on after a pace is kept. -/
theorem Leads.trans_stays (h : k.Leads c d) (hs : Pace.stays.Leads d e) : k.Leads c e := by
  cases k with
  | stays => exact List.IsSuffix.trans hs h
  | moves => exact ⟨List.IsSuffix.trans hs h.1, fun hc => List.IsSuffix.trans hs (h.2 hc)⟩
  | advances => exact List.IsSuffix.trans hs h

/-- Keeping a pace after something has been read, or nothing. -/
theorem Leads.stays_trans (hs : Pace.stays.Leads c d) (h : k.Leads d e) : k.Leads c e := by
  -- either the places are at the same token, or a token has been read on the way
  rcases List.suffix_cons_iff.mp hs with same | later
  · obtain ⟨hc, hl⟩ := List.cons.inj same
    unfold Leads at h ⊢
    rwa [same, hc, hl] at h
  · exact Leads.of_advances (List.IsSuffix.trans h.stays later)

end Pace

/-! ## Raw code -/

end Parse

namespace Cursor

theorem next_rest_suffix (c : Cursor) : c.next.rest <:+ c.rest := by
  rcases c with ⟨last, current, _ | ⟨t, ts⟩⟩
  · exact List.suffix_rfl
  · exact List.suffix_cons _ _

theorem next_rest {c : Cursor} (h : c.later ≠ []) : c.next.rest = c.later := by
  rcases c with ⟨last, current, _ | ⟨t, ts⟩⟩
  · exact absurd rfl h
  · rfl

theorem iterate_next_rest_suffix (n : Nat) (c : Cursor) : (next^[n] c).rest <:+ c.rest := by
  induction n generalizing c with
  | zero => exact List.suffix_rfl
  | succ n ih => exact (ih c.next).trans c.next_rest_suffix

/-- Raw code is skipped token by token. -/
theorem afterCode_eq_iterate (line depth : Nat) (last current : Token) (later : List Token) :
    ∃ n ≤ later.length, afterCode line depth last current later = next^[n] ⟨last, current, later⟩ := by
  induction later generalizing depth last current with
  | nil =>
    refine ⟨0, le_rfl, ?_⟩
    rw [afterCode]
    split <;> rfl
  | cons t ts ih =>
    rw [afterCode]
    split
    · exact ⟨0, Nat.zero_le _, rfl⟩
    · obtain ⟨n, hn, he⟩ := ih (if current.isSymbol "\x7b" then depth + 1
        else if current.isSymbol "\x7d" then depth - 1 else depth) current t
      exact ⟨n + 1, Nat.succ_le_succ hn, he⟩

/-- The first token of raw code is skipped whatever it is. -/
theorem skipCode_eq_iterate {c : Cursor} (h : c.later ≠ []) :
    ∃ n, 0 < n ∧ n ≤ c.later.length ∧ c.skipCode = next^[n] c := by
  rcases c with ⟨last, current, _ | ⟨t, ts⟩⟩
  · exact absurd rfl h
  · obtain ⟨n, hn, he⟩ := afterCode_eq_iterate current.position.line (if current.isSymbol "\x7b" then 1 else 0)
      current t ts
    exact ⟨n + 1, Nat.succ_pos n, Nat.succ_le_succ hn, he⟩

theorem skipCode_of_later_eq_nil {c : Cursor} (h : c.later = []) : c.skipCode = c := by
  rw [skipCode, h]

theorem skipCode_rest_suffix (c : Cursor) : c.skipCode.rest <:+ c.rest := by
  by_cases h : c.later = []
  · simp only [skipCode_of_later_eq_nil h, List.suffix_rfl]
  · obtain ⟨n, -, -, he⟩ := skipCode_eq_iterate h
    rw [he]
    exact iterate_next_rest_suffix n c

end Cursor

namespace Parse

/-! ## Runs -/

/-- A run from a place that keeps a pace, which may depend on what is read: it is not stopped before its
end, and if it succeeds, it has moved so far. -/
def Pace.Keeps (pace : α → Pace) (c : Cursor) (result : Except Failure α × ParseState) : Prop :=
  result.1 ≠ .error .stalled ∧ ∀ a t, result = (.ok a, t) → (pace a).Leads c t.cursor

namespace Pace

variable {pace : α → Pace} {c : Cursor} {t : ParseState}

theorem Keeps.ok {a : α} (h : (pace a).Leads c t.cursor) : Keeps pace c (.ok a, t) := by
  constructor
  · rintro he
    cases he
  · rintro b u hu
    cases hu
    exact h

theorem Keeps.error {e : Failure} (h : e ≠ .stalled) : Keeps pace c (.error e, t) := by
  refine ⟨fun he => h (Except.error.inj he), ?_⟩
  rintro b u hu
  cases hu

end Pace

/-! ## Progress -/

/-- A parser that keeps a pace wherever it is run. -/
def Paced (pace : α → Pace) (m : Parse α) : Prop :=
  ∀ source s, Ended s.cursor.rest → Pace.Keeps pace s.cursor (m source s)

namespace Paced

variable {k : Pace} {pace : α → Pace} {after : β → Pace} {m : Parse α} {f : α → Parse β}

/-! ### Steps -/

theorem pure {a : α} (h : pace a = .stays) : Paced pace (Pure.pure a) := by
  intro source s hs
  refine .ok ?_
  rw [h]
  exact List.suffix_rfl

theorem throw {e : Failure} (h : e ≠ .stalled) : Paced pace (MonadExcept.throw e) :=
  fun _ _ _ => .error h

/-- A step that only looks. -/
theorem of_look {m : Parse α} {look : Source → ParseState → α}
    (h : ∀ source s, m source s = (.ok (look source s), s)) : Paced (fun _ => .stays) m := by
  intro source s hs
  rw [h]
  exact .ok List.suffix_rfl

theorem settle (use : Guard → Except Violation Unit × Guard) :
    Paced (fun _ => .stays) (do Parse.settle (use (← get).guard)) := by
  intro source s hs
  show Pace.Keeps _ _ (Parse.settle (use s.guard) source s)
  rcases use s.guard with ⟨violation | ⟨⟩, guard⟩
  · exact .error Failure.noConfusion
  · exact .ok List.suffix_rfl

/-! ### Composition -/

/-- One parser after another, with what their paces come to. -/
theorem andThen {next : β → Pace} (hm : Paced pace m) (hf : ∀ a, Paced next (f a))
    (h : ∀ a b c d e, (pace a).Leads c d → (next b).Leads d e → (after b).Leads c e) :
    Paced after (m >>= f) := by
  intro source s hs
  obtain ⟨hn, hk⟩ := hm source s hs
  rw [bind_run]
  rcases hr : m source s with ⟨e | a, t⟩
  · exact .error fun he => hn (by rw [hr, he])
  · have led := hk a t hr
    have ended : Ended t.cursor.rest := hs.suffix led.stays (List.cons_ne_nil _ _)
    obtain ⟨hn', hk'⟩ := hf a source t ended
    exact ⟨hn', fun b u hu => h a b _ _ _ led (hk' b u hu)⟩

theorem later (hm : Paced (fun _ => .stays) m) (hf : ∀ a, Paced after (f a)) : Paced after (m >>= f) :=
  hm.andThen hf fun _ _ _ _ _ => .stays_trans

theorem bind (hm : Paced (fun _ => k) m) (hf : ∀ a, Paced (fun _ => .stays) (f a)) :
    Paced (fun _ => k) (m >>= f) :=
  hm.andThen hf fun _ _ _ _ _ => .trans_stays

/-- After a token has been read, every pace has been kept. -/
theorem thenAny (hm : Paced (fun _ => .advances) m) (hf : ∀ a, Paced (fun _ => .stays) (f a)) :
    Paced after (m >>= f) :=
  hm.andThen hf fun _ _ _ _ _ led stayed => (led.trans_stays stayed).of_advances

/-- Going on at a place that a pace leads to. -/
theorem goOn {m : Parse α} (hm : Paced (fun _ => .stays) m) (source : Source) {c : Cursor} {s : ParseState}
    (hc : Ended c.rest) (led : k.Leads c s.cursor) : Pace.Keeps (fun _ => k) c (m source s) := by
  obtain ⟨hn, hk⟩ := hm source s (hc.suffix led.stays (List.cons_ne_nil _ _))
  exact ⟨hn, fun a t hr => led.trans_stays (hk a t hr)⟩

/-! ### Rules -/

theorem current {f : Token → Parse β} (hf : ∀ t, Paced (fun _ => k.before t) (f t)) :
    Paced (fun _ => k) (Parse.current >>= f) := by
  intro source s hs
  show Pace.Keeps _ _ (f s.cursor.current source s)
  obtain ⟨hn, hk⟩ := hf s.cursor.current source s hs
  refine ⟨hn, fun b t hr => ?_⟩
  have led := hk b t hr
  cases k with
  | stays => exact led
  | moves => exact led
  | advances =>
    rw [Pace.before] at led
    split at led
    · exact led
    · next goesOn => exact led.2 (by simpa using goesOn)

theorem advance {f : Token → Parse β} (hf : ∀ t, Paced (fun _ => .stays) (f t)) :
    Paced (fun _ => .moves) (Parse.advance >>= f) := by
  intro source s hs
  have moved : Pace.moves.Leads s.cursor s.cursor.next :=
    ⟨s.cursor.next_rest_suffix, fun goesOn => (Cursor.next_rest (hs.later_ne_nil goesOn)).symm ▸ List.suffix_rfl⟩
  exact (hf s.cursor.current).goOn source hs moved

/-- The second parser starts where the first one did. -/
theorem orElseFrom {first second : Parse α} (hf : Paced pace first) (hs : Paced pace second) :
    Paced pace (Parse.orElseFrom first second) := by
  intro source s he
  by_cases hp : ∃ e, (first source s).1 = .error (.parse e)
  · obtain ⟨e, hp⟩ := hp
    rcases hr : first source s with ⟨outcome, failed⟩
    rw [hr] at hp
    cases hp
    rw [orElseFrom_run_parse hr]
    exact hs source { failed with cursor := s.cursor } he
  · rw [orElseFrom_run_other fun e h => hp ⟨e, h⟩]
    exact hf source s he

theorem steps : Steps (fun _ => True) fun k => Paced fun _ => k where
  any hm source s hs := ⟨(hm source s hs).1, fun a t hr => ((hm source s hs).2 a t hr).of_advances⟩
  slow hm source s hs := ⟨(hm source s hs).1, fun a t hr => ((hm source s hs).2 a t hr).stays⟩
  pure _ := pure rfl
  input _ := throw Failure.noConfusion
  refuse _ := throw Failure.noConfusion
  failAt _ _ := later (of_look fun _ _ => rfl) fun _ => throw Failure.noConfusion
  bind := bind
  later := later
  read := of_look fun _ _ => rfl
  previous := of_look fun _ _ => rfl
  following := of_look fun _ _ => rfl
  current hf := current fun t => hf t trivial
  advance hf := advance fun t => hf t trivial
  check checks := settle (·.check checks)
  orElseFrom := orElseFrom

/-! ### Loops -/

/-- How far a round of a loop is to move: over a token at least, unless it is the last round. -/
def ofRound : Round σ → Pace
  | .again _ => .advances
  | .done _ => .stays

/-- A loop that may take more rounds than there are tokens left takes its last one. -/
theorem roundsUpTo {round : σ → Parse (Round σ)} (h : ∀ x, Paced ofRound (round x)) (source : Source) (n : Nat)
    (x : σ) (s : ParseState) (hs : Ended s.cursor.rest) (hn : s.cursor.later.length < n) :
    Pace.Keeps (fun _ => .stays) s.cursor (Parse.roundsUpTo round n x source s) := by
  induction n generalizing x s with
  | zero => exact absurd hn (Nat.not_lt_zero _)
  | succ n ih =>
    obtain ⟨hne, hk⟩ := h x source s hs
    rw [Parse.roundsUpTo, bind_run]
    rcases hr : round x source s with ⟨e | r, t⟩
    · exact .error fun he => hne (by rw [hr, he])
    · cases r with
      | again y =>
        have led : t.cursor.rest <:+ s.cursor.later := hk _ t hr
        -- the round has read a token, so there are still more rounds than tokens
        have fewer : t.cursor.later.length < n := by
          have := led.length_le
          simp only [Cursor.rest, List.length_cons] at this
          omega
        have stayed : Pace.stays.Leads s.cursor t.cursor := led.trans (List.suffix_cons _ _)
        obtain ⟨hne', hk'⟩ := ih y t (hs.suffix stayed (List.cons_ne_nil _ _)) fewer
        exact ⟨hne', fun b u hu => stayed.trans_stays (hk' b u hu)⟩
      | done y => exact .ok (hk _ t hr)

theorem rounds {round : σ → Parse (Round σ)} (h : ∀ x, Paced ofRound (round x)) (x : σ) :
    Paced (fun _ => .stays) (Parse.rounds round x) := fun source s hs =>
  roundsUpTo h source _ x s hs (Nat.lt_succ_self _)

variable {item : σ → Parse σ}

theorem itemsUntil {closing : String} (h : ∀ x, Paced (fun _ => .advances) (item x)) (x : σ) :
    Paced (fun _ => .stays) (Parse.itemsUntil closing item x) := by
  refine rounds (fun x => later (steps.atSymbol closing) fun b => ?_) x
  split
  · exact pure rfl
  · exact (h x).thenAny fun _ => pure rfl

theorem itemsBetweenCommas {closing : String} (h : ∀ x, Paced (fun _ => .advances) (item x)) (x : σ) :
    Paced (fun _ => .stays) (Parse.itemsBetweenCommas closing item x) := by
  refine rounds (fun x => later (steps.atSymbol closing) fun b => ?_) x
  split
  · exact pure rfl
  · refine (h x).thenAny fun y => later (steps.skipSymbol ",") fun comma => ?_
    split
    · exact pure rfl
    · exact pure rfl

theorem itemsFrom {start : String} (h : ∀ x, Paced (fun _ => .advances) (item x)) (x : σ) :
    Paced (fun _ => .stays) (Parse.itemsFrom start item x) := by
  refine rounds (fun x => later (steps.atWord start) fun b => ?_) x
  split
  · exact (h x).thenAny fun _ => pure rfl
  · exact pure rfl

/-! ### Embedded sources -/

/-- The place outside is kept, whatever is read inside. -/
theorem embedded {inner : Parse Expr} (hi : Paced (fun _ => .stays) inner) (origin : Token)
    (source : List Char) : Paced (fun _ => .stays) (Expr.parseEmbedded inner origin source) := by
  unfold Expr.parseEmbedded
  split
  · exact throw Failure.noConfusion
  · next tokens ht =>
    intro outer s hs
    have ended : Ended (tokens.map ({ · with position := origin.position })) :=
      (Ended.of_scan ht).map fun _ => rfl
    rw [bind_run_ok (get_run outer s)]
    dsimp only
    rw [bind_run_ok (goTo_run _ outer s), bind_run]
    have inside : Ended (Cursor.ofTokens (tokens.map ({ · with position := origin.position }))).rest := by
      rwa [Cursor.rest_ofTokens ended.ne_nil]
    -- the tokens inside end as those outside do, so the inner parser is not stopped either
    obtain ⟨hn, -⟩ := hi outer { s with cursor := .ofTokens _ } inside
    rcases hr : inner outer _ with ⟨e | e, t⟩
    · exact .error fun he => hn (by rw [hr, he])
    · dsimp only
      rw [Parse.atEnding, bind_assoc, bind_run_ok (current_run outer t), pure_bind]
      split
      · rw [bind_run_ok (goTo_run _ outer t)]
        exact .ok List.suffix_rfl
      · exact .error Failure.noConfusion

/-! ### Raw code -/

theorem skipCode_leads {c : Cursor} (h : Ended c.rest) : Pace.moves.Leads c c.skipCode := by
  by_cases hl : c.later = []
  · rw [Cursor.skipCode_of_later_eq_nil hl]
    exact ⟨List.suffix_rfl, fun goesOn => absurd hl (h.later_ne_nil goesOn)⟩
  · obtain ⟨n, hn, -, he⟩ := Cursor.skipCode_eq_iterate hl
    obtain ⟨n, rfl⟩ := Nat.exists_eq_add_one_of_ne_zero hn.ne'
    have passed : (Cursor.next^[n] c.next).rest <:+ c.later :=
      Cursor.next_rest hl ▸ c.next.iterate_next_rest_suffix n
    rw [he]
    exact Pace.Leads.of_advances passed

/-- Raw code starts with the next token, whatever it is. -/
theorem code : Paced (fun _ => .moves) Action.parseCode := by
  have text (first : Token) : Paced (fun _ => .stays) (do
      let text := (← read).slice first.start (← Parse.previous).stop
      Parse.check (Check.string text "action code")
      return Action.code text) :=
    steps.bind steps.read fun _ => steps.bind steps.previous fun _ => steps.bind (steps.check _) fun _ => steps.pure _
  intro source s hs
  rw [Action.parseCode, bind_run_ok (current_run source s), bind_run_ok (get_run source s),
    bind_run_ok (goTo_run _ source s)]
  exact (text s.cursor.current).goOn source hs (skipCode_leads hs)

/-! ### The grammar -/

theorem counted (v : StateVar) : Paced (fun _ => .stays) (do
    modify fun s => { s with declared := s.declared + 1 }
    Parse.check [Check.stateCount (← get).declared]
    return v) := fun source s hs =>
  steps.bind (steps.check _) (fun _ => steps.pure v) source { s with declared := s.declared + 1 } hs

theorem measured (screen : Screen) : Paced (fun _ => .stays) (do
    Parse.settle ((← get).guard.checkTree screen.name screen.ui)
    return screen) := fun source s hs =>
  steps.bind (settle (·.checkTree screen.name screen.ui)) (fun _ => steps.pure screen) source s hs

/-- Every parser of the grammar keeps its pace. -/
theorem rules : Rules (fun _ => True) fun k => Paced fun _ => k where
  toSteps := steps
  itemsUntil := itemsUntil
  itemsBetweenCommas := itemsBetweenCommas
  itemsFrom := itemsFrom
  embedded _ _ hi := embedded hi _ _
  code := code
  counted := counted
  measured := measured

end Paced

/-! ## What is read again and again -/

/-- The steps of the loops of the grammar, each from what the loop has read so far. -/
inductive Repeated : ∀ {σ : Type}, (σ → Parse σ) → Prop where
  | statements (depth : Nat) :
    Repeated (adding (beforeEnding (Action.parseStatementWith (Expr.parse depth) (Action.parseBlock depth)
      (Action.parseBranch depth))))
  | nodes (depth : Nat) :
    Repeated (adding (beforeEnding (Node.parseWith (Expr.parse depth) (Action.parseBlock depth)
      (Node.parseChildren depth))))
  | arguments (depth : Nat) : Repeated (Expr.addArgument (Expr.parse depth))
  | properties (depth : Nat) : Repeated (Node.addProperty (Expr.parse depth))
  | items (scope : List StateVar) (depth : Nat) : Repeated (Value.addItem (Value.parse scope depth))
  | entries (scope : List StateVar) (depth : Nat) : Repeated (Value.addEntry (Value.parse scope depth))
  | stateVars (outer : List StateVar) :
    Repeated fun declared => adding (beforeEnding (StateVar.parse (outer ++ declared))) declared
  | fields : Repeated (adding DataField.parse)
  | params : Repeated (adding Param.parse)
  | screenItems (screen : String) (appState : List StateVar) :
    Repeated (ScreenBody.parseItem screen appState)
  | appItems : Repeated AppBody.parseItem
  | imports : Repeated (adding parseImport)
  | models : Repeated (adding DataModel.parse)
  | screens (appState : List StateVar) : Repeated (Program.addScreen appState)

theorem Repeated.advances {item : σ → Parse σ} (h : Repeated item) (x : σ) :
    Paced (fun _ => .advances) (item x) := by
  have rules := Paced.rules
  cases h with
  | statements depth =>
    exact rules.adding (rules.beforeEnding
      (rules.statementWith (rules.expr depth) (rules.actions depth) (rules.branch depth))) x
  | nodes depth =>
    exact rules.adding (rules.beforeEnding
      (rules.nodeWith (rules.expr depth) (rules.actions depth) (rules.nodes depth))) x
  | arguments depth => exact rules.argument (rules.expr depth) x
  | properties depth => exact rules.property (rules.expr depth) x
  | items scope depth => exact rules.item (rules.value scope depth) x
  | entries scope depth => exact rules.entry (rules.value scope depth) x
  | stateVars outer => exact rules.adding (rules.beforeEnding (rules.stateVar _)) x
  | fields => exact rules.adding rules.field x
  | params => exact rules.adding rules.param x
  | screenItems screen appState => exact rules.screenItem screen appState x
  | appItems => exact rules.appItem x
  | imports => exact rules.adding rules.importPath x
  | models => exact rules.adding rules.model x
  | screens appState => exact rules.addScreen appState x

theorem check_cursor (checks : List Check) (source : Source) (s : ParseState) :
    (check checks source s).2.cursor = s.cursor := by
  show (settle (s.guard.check checks) source s).2.cursor = s.cursor
  rcases s.guard.check checks with ⟨violation | ⟨⟩, guard⟩ <;> rfl

/-- Raw code is read by skipping it. -/
theorem parseCode_cursor (source : Source) (s : ParseState) :
    (Action.parseCode source s).2.cursor = s.cursor.skipCode := by
  rw [Action.parseCode, bind_run_ok (current_run source s), bind_run_ok (get_run source s),
    bind_run_ok (goTo_run _ source s), bind_run_ok (read_run source _), bind_run_ok (previous_run source _), bind_run]
  have kept := check_cursor (Check.string (source.slice s.cursor.current.start s.cursor.skipCode.last.stop) "action code")
    source { s with cursor := s.cursor.skipCode }
  rcases hc : check _ source _ with ⟨e | ⟨⟩, t⟩ <;> rw [hc] at kept <;> exact kept

end Parse

/-! ## Parsing ends -/

/-- The tokens of a source text, or the error of a string literal that is never closed. -/
theorem Source.tokens_ended (source : Source) :
    (∃ tokens, source.tokens = .ok tokens ∧ Ended tokens) ∨
      ∃ e : ParseError, source.tokens = .error (.parse e) ∧ e.cause = .unterminatedString := by
  unfold Source.tokens
  split
  · next tokens h => exact .inl ⟨tokens, rfl, .of_scan h⟩
  · exact .inr ⟨_, rfl, rfl⟩

theorem Program.parse_not_stalled (level : Level) (source : Source) :
    (Program.parse level source).1 ≠ .error .stalled := by
  rw [Program.parse, Policy.read]
  rcases source.tokens_ended with ⟨tokens, ht, ended⟩ | ⟨e, ht, -⟩
  · rw [ht]
    have start : Ended (Cursor.ofTokens tokens).rest := by rwa [Cursor.rest_ofTokens ended.ne_nil]
    obtain ⟨hn, -⟩ := Parse.Paced.rules.program (k := .advances) source ⟨.ofTokens tokens, .ofLevel level, 0⟩ start
    show ((Program.parser source ⟨.ofTokens tokens, .ofLevel level, 0⟩).1.map _ |>.map _) ≠ _
    cases hr : (Program.parser source ⟨.ofTokens tokens, .ofLevel level, 0⟩).1 with
    | error failure =>
      rintro he
      cases he
      exact hn hr
    | ok p =>
      rintro he
      cases he
  · rw [ht]
    rintro he
    cases he

/-- Parsing ends on every text. The lexer reads something with every lexeme, and it fails only at a string literal
that is never closed; the tokens that it gives end where the text does. From there the parser comes to a program or
to an error of the text, never to a loop that is stopped before its end: wherever tokens are left that end so, what
a loop reads again and again is a token at least, and raw code is skipped token by token, at least one of them. An
expression embedded in a token is parsed apart, from a text that is shorter than the token. -/
theorem parsing_ends :
    (∀ cs l, Token.lexeme? (Token.splitGap false cs).2 = some l → ∃ read, read ≠ [] ∧ read ++ l.rest = cs) ∧
    (∀ source : Source,
      (∃ tokens, source.tokens = .ok tokens ∧ Ended tokens) ∨
        ∃ e : ParseError, source.tokens = .error (.parse e) ∧ e.cause = .unterminatedString) ∧
    (∀ level source, (Program.parse level source).1 ≠ .error .stalled) ∧
    (∀ {σ : Type} (item : σ → Parse σ), Parse.Repeated item → ∀ x source s, Ended s.cursor.rest →
      (item x source s).1 ≠ .error .stalled ∧
        ∀ y t, item x source s = (.ok y, t) → t.cursor.rest <:+ s.cursor.later) ∧
    (∀ source (s : ParseState), Ended s.cursor.rest → s.cursor.current.isEnding = false →
      ∃ n, 0 < n ∧ n ≤ s.cursor.later.length ∧
        (Action.parseCode source s).2.cursor = Cursor.next^[n] s.cursor) ∧
    ∀ text tokens token source, Token.scan text = .ok tokens → token ∈ tokens →
      .embedded source ∈ Segment.ofText token.value.toList →
      source.length < token.text.toList.length ∧ token.text.toList.length ≤ text.length := by
  refine ⟨?_, Source.tokens_ended, Program.parse_not_stalled, ?_, ?_, ?_⟩
  · intro cs l h
    obtain ⟨whole, nonempty⟩ := Token.lexeme?_append h
    refine ⟨(Token.splitGap false cs).1 ++ l.raw, fun he => nonempty (List.append_eq_nil_iff.mp he).2, ?_⟩
    rw [List.append_assoc, whole, Token.splitGap_append]
  · exact fun item h x source s hs => Parse.Repeated.advances h x source s hs
  · intro source s hs goesOn
    rw [Parse.parseCode_cursor]
    exact Cursor.skipCode_eq_iterate (hs.later_ne_nil goesOn)
  · intro text tokens token source h ht hs
    obtain ⟨shorter, within⟩ := Token.length_value_le 0 .first text h ht
    have inside := (Segment.embedded_pieces hs).length_le
    simp only [List.length_append, List.length_cons, List.length_nil] at inside
    exact ⟨by omega, within⟩

end Screenplay
