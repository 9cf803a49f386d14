/-
The tokens that a parser reads: those between the place where it starts and the place where it ends. What a parser
is put together from reads one token after the other, and expressions read some tokens, none of which is a brace.
-/
import Screenplay.Proofs.Parse.Progress
import Screenplay.Proofs.Parse.Reads

namespace Screenplay

/-! ## Braces -/

namespace Token

/-- A token that opens a block or closes one. -/
def isBrace (t : Token) : Bool := t.isSymbol "\x7b" || t.isSymbol "\x7d"

theorem isBrace_of_kind {t : Token} (h : t.kind ≠ .symbol) : t.isBrace = false := by
  rw [isBrace, isSymbol_of_kind h, isSymbol_of_kind h, Bool.or_false]

theorem isBrace_of_isWord {t : Token} {word : String} (h : t.isWord word = true) : t.isBrace = false :=
  isBrace_of_kind (by rw [(isWord_iff.mp h).1]; decide)

theorem isBrace_of_isSymbol {t : Token} {symbol : String} (h : t.isSymbol symbol = true)
    (other : symbol ≠ "\x7b" ∧ symbol ≠ "\x7d") : t.isBrace = false := by
  rw [isBrace, isSymbol_of_ne h other.1, isSymbol_of_ne h other.2, Bool.or_false]

/-- A token that is an operator. -/
theorem of_operator? {t : Token} {op : Operator} (h : t.operator? = some op) :
    t.isBrace = false ∧ t.isEnding = false := by
  unfold operator? at h
  constructor
  · rw [isBrace, Bool.or_eq_false_iff, isSymbol, isSymbol]
    constructor
    all_goals
      rw [Bool.and_eq_false_iff, beq_eq_false_iff_ne]
      right
      intro hv
      rw [hv] at h
      cases h
  · split at h
    · split at h
      · next kind =>
        rcases kind with ⟨kind, -⟩ | ⟨kind, -⟩ <;> exact isEnding_of_kind kind (by decide)
      · cases h
    · cases h

end Token

/-- Some tokens without braces, at least one. -/
structure Phrase (tokens : List Token) : Prop where
  nonempty : tokens ≠ []
  plain : ∀ t ∈ tokens, t.isBrace = false

theorem Phrase.cons {t : Token} {tokens : List Token} (h : t.isBrace = false)
    (plain : ∀ u ∈ tokens, u.isBrace = false) : Phrase (t :: tokens) :=
  ⟨List.cons_ne_nil _ _, List.forall_mem_cons.mpr ⟨h, plain⟩⟩

/-! ## Places -/

namespace Cursor

/-- A place that is reached from another one over some tokens. -/
structure Over (c : Cursor) (span : List Token) (d : Cursor) : Prop where
  rest : c.rest = span ++ d.rest
  last : d.last = span.getLast?.getD c.last

namespace Over

variable {c d e : Cursor} {span later : List Token}

theorem refl (c : Cursor) : c.Over [] c := ⟨rfl, rfl⟩

theorem trans (h : c.Over span d) (h' : d.Over later e) : c.Over (span ++ later) e := by
  constructor
  · rw [h.rest, h'.rest, List.append_assoc]
  · rw [h'.last, h.last, List.getLast?_append, Option.getD_or]

theorem next (h : c.later ≠ []) : c.Over [c.current] c.next := by
  rcases c with ⟨last, current, _ | ⟨t, ts⟩⟩
  · exact absurd rfl h
  · exact ⟨rfl, rfl⟩

theorem ended (h : c.Over span d) (hc : Ended c.rest) : Ended d.rest :=
  hc.suffix ⟨span, h.rest.symm⟩ (List.cons_ne_nil _ _)

/-- The first token on the way is the next one at its start. -/
theorem head?_eq (h : c.Over span d) (nonempty : span ≠ []) : span.head? = some c.current := by
  cases span with
  | nil => exact absurd rfl nonempty
  | cons t span =>
    obtain ⟨first, -⟩ := List.cons.inj h.rest
    rw [first, List.head?_cons]

end Over

end Cursor

namespace Parse

variable {α β σ : Type} {source : Source} {m : Parse α} {f : α → Parse β} {c : Cursor}
  {P Q : List Token → Cursor → α → Prop} {R : List Token → Cursor → β → Prop}

/-! ## What a parser reads -/

/-- A parser that reads some tokens from a place on if it succeeds. A property holds of the tokens, of the place that
they lead to and of the result. -/
def Takes (source : Source) (m : Parse α) (c : Cursor) (Q : List Token → Cursor → α → Prop) : Prop :=
  Ended c.rest → ∀ s a t, s.cursor = c → m source s = (.ok a, t) → ∃ span, c.Over span t.cursor ∧ Q span t.cursor a

/-- A parser that is where it started if it succeeds. -/
def Stays (source : Source) (m : Parse α) : Prop := ∀ s a t, m source s = (.ok a, t) → t.cursor = s.cursor

namespace Stays

theorem pure (a : α) : Stays source (Pure.pure a) := by
  rintro s b t ⟨⟩
  rfl

theorem throw (e : Failure) : Stays source (MonadExcept.throw e : Parse α) := by
  rintro s b t ⟨⟩

theorem check (checks : List Check) : Stays source (check checks) := by
  intro s a t hr
  have kept := check_cursor checks source s
  rwa [hr] at kept

theorem bind (hm : Stays source m) (hf : ∀ a, Stays source (f a)) : Stays source (m >>= f) := by
  intro s b t hr
  rw [bind_run] at hr
  rcases hm' : m source s with ⟨e | a, u⟩
  · rw [hm'] at hr
    cases hr
  · rw [hm'] at hr
    rw [hf a u b t hr, hm s a u hm']

end Stays

namespace Takes

theorem mono (h : Takes source m c P) (hpq : ∀ span d a, P span d a → Q span d a) : Takes source m c Q := by
  intro ended s a t hs hr
  obtain ⟨span, crossed, hp⟩ := h ended s a t hs hr
  exact ⟨span, crossed, hpq _ _ _ hp⟩

/-! ### Steps -/

theorem pure {a : α} (h : Q [] c a) : Takes source (Pure.pure a) c Q := by
  rintro - s b t rfl hr
  cases hr
  exact ⟨[], .refl _, h⟩

theorem failing (h : ∀ s, s.cursor = c → ∃ e, (m source s).1 = .error e) : Takes source m c Q := by
  intro _ s a t hs hr
  obtain ⟨e, he⟩ := h s hs
  rw [hr] at he
  cases he

theorem throw (e : Failure) : Takes source (MonadExcept.throw e) c Q :=
  failing fun _ _ => ⟨e, rfl⟩

theorem tooDeep : Takes source tooDeep c Q :=
  throw _

theorem failAt (token : Token) (cause : ParseCause) : Takes source (failAt token cause) c Q :=
  failing fun _ _ => ⟨_, rfl⟩

theorem fail (cause : ParseCause) : Takes source (fail cause) c Q :=
  failing fun _ _ => ⟨_, rfl⟩

/-! ### Composition -/

theorem bind (hm : Takes source m c P)
    (hf : ∀ span d a, c.Over span d → P span d a → Takes source (f a) d fun later => R (span ++ later)) :
    Takes source (m >>= f) c R := by
  intro ended s b t hs hr
  rw [bind_run] at hr
  rcases hm' : m source s with ⟨e | a, u⟩
  · rw [hm'] at hr
    cases hr
  · rw [hm'] at hr
    obtain ⟨span, crossed, hp⟩ := hm ended s a u hs hm'
    obtain ⟨later, crossed', hq⟩ := hf span u.cursor a crossed hp (crossed.ended ended) u b t rfl hr
    exact ⟨span ++ later, crossed.trans crossed', hq⟩

/-- What comes after a parser that stays where it is. -/
theorem after (hm : Stays source m) (hf : ∀ a, Takes source (f a) c R) : Takes source (m >>= f) c R := by
  refine bind (P := fun span d _ => span = [] ∧ d = c) ?_ ?_
  · rintro - s a t rfl hr
    rw [hm s a t hr]
    exact ⟨[], .refl _, rfl, rfl⟩
  · rintro _ _ a crossed ⟨rfl, rfl⟩
    exact hf a

/-- What comes after a parser that always fails. -/
theorem stop (hm : Takes source m c fun _ _ _ => False) : Takes source (m >>= f) c R :=
  hm.bind fun _ _ _ _ h => h.elim

/-- What comes after a parser that only looks. -/
theorem look {a : α} (h : ∀ s, s.cursor = c → m source s = (.ok a, s)) (hf : Takes source (f a) c R) :
    Takes source (m >>= f) c R := by
  intro ended s b t hs hr
  rw [bind_run_ok (h s hs)] at hr
  exact hf ended s b t hs hr

/-- What comes after a parser that reads the next token. -/
theorem step {a : α} (goesOn : c.current.isEnding = false)
    (h : ∀ s, s.cursor = c → m source s = (.ok a, { s with cursor := c.next }))
    (hf : ∀ d, c.Over [c.current] d → Takes source (f a) d fun later => R (c.current :: later)) :
    Takes source (m >>= f) c R := by
  refine bind (P := fun span _ b => span = [c.current] ∧ b = a) ?_ ?_
  · intro ended s b t hs hr
    rw [h s hs] at hr
    cases hr
    exact ⟨_, .next (ended.later_ne_nil goesOn), rfl, rfl⟩
  · rintro _ d _ crossed ⟨rfl, rfl⟩
    exact hf d crossed

theorem orElseFrom {first second : Parse α} (hf : Takes source first c Q) (hs : Takes source second c Q) :
    Takes source (orElseFrom first second) c Q := by
  intro ended s a t hc hr
  by_cases hp : ∃ e, (first source s).1 = .error (.parse e)
  · obtain ⟨e, hp⟩ := hp
    rcases hr' : first source s with ⟨outcome, failed⟩
    rw [hr'] at hp
    cases hp
    rw [orElseFrom_run_parse hr'] at hr
    exact hs ended { failed with cursor := s.cursor } a t hc hr
  · rw [orElseFrom_run_other fun e h => hp ⟨e, h⟩] at hr
    exact hf ended s a t hc hr

/-! ### Tokens -/

theorem current {f : Token → Parse β} (hf : Takes source (f c.current) c R) : Takes source (current >>= f) c R :=
  look (fun s hs => by rw [current_run, hs]) hf

theorem previous {f : Token → Parse β} (hf : Takes source (f c.last) c R) : Takes source (previous >>= f) c R :=
  look (fun s hs => by rw [previous_run, hs]) hf

theorem following {f : Token → Parse β} (hf : Takes source (f c.following) c R) :
    Takes source (following >>= f) c R :=
  look (by rintro s rfl; rfl) hf

theorem read {f : Source → Parse β} (hf : Takes source (f source) c R) :
    Takes source (MonadReader.read >>= f) c R :=
  look (fun s _ => read_run source s) hf

theorem atSymbol {f : Bool → Parse β} {symbol : String} (hf : Takes source (f (c.current.isSymbol symbol)) c R) :
    Takes source (atSymbol symbol >>= f) c R :=
  look (by rintro s rfl; rfl) hf

theorem atWord {f : Bool → Parse β} {word : String} (hf : Takes source (f (c.current.isWord word)) c R) :
    Takes source (atWord word >>= f) c R :=
  look (by rintro s rfl; rfl) hf

theorem atEnding {f : Bool → Parse β} (hf : Takes source (f c.current.isEnding) c R) :
    Takes source (atEnding >>= f) c R :=
  look (by rintro s rfl; rfl) hf

theorem check {f : Unit → Parse β} (checks : List Check) (hf : Takes source (f ()) c R) :
    Takes source (check checks >>= f) c R :=
  after (.check checks) fun _ => hf

theorem advance {f : Token → Parse β} (goesOn : c.current.isEnding = false)
    (hf : ∀ d, c.Over [c.current] d → Takes source (f c.current) d fun later => R (c.current :: later)) :
    Takes source (advance >>= f) c R :=
  step goesOn (by rintro s rfl; rfl) hf

theorem skip {f : Unit → Parse β} (goesOn : c.current.isEnding = false)
    (hf : ∀ d, c.Over [c.current] d → Takes source (f ()) d fun later => R (c.current :: later)) :
    Takes source (discard Parse.advance >>= f) c R :=
  step goesOn (by rintro s rfl; rfl) hf

theorem expectSymbol {f : Unit → Parse β} {symbol : String} (hf : c.current.isSymbol symbol = true → ∀ d,
      c.Over [c.current] d → Takes source (f ()) d fun later => R (c.current :: later)) :
    Takes source (expectSymbol symbol >>= f) c R := by
  rw [Parse.expectSymbol, bind_assoc]
  refine atSymbol ?_
  split
  · next h => exact skip (Token.isEnding_of_isSymbol h) (hf h)
  · exact stop (fail _)

theorem expectWord {f : Token → Parse β} {word : String} (hf : c.current.isWord word = true → ∀ d,
      c.Over [c.current] d → Takes source (f c.current) d fun later => R (c.current :: later)) :
    Takes source (expectWord word >>= f) c R := by
  rw [Parse.expectWord, bind_assoc]
  refine atWord ?_
  split
  · next h => exact advance (Token.isEnding_of_isWord h) (hf h)
  · exact stop (fail _)

theorem keyword {f : Unit → Parse β} {word : String} (hf : c.current.isWord word = true → ∀ d,
      c.Over [c.current] d → Takes source (f ()) d fun later => R (c.current :: later)) :
    Takes source (discard (Parse.expectWord word) >>= f) c R := by
  rw [Functor.discard, map_const, Function.comp_apply, bind_map_left]
  exact expectWord hf

theorem word {f : Token → Parse β} {what : String} (hf : c.current.kind = .word → ∀ d,
      c.Over [c.current] d → Takes source (f c.current) d fun later => R (c.current :: later)) :
    Takes source (word what >>= f) c R := by
  rw [Parse.word, bind_assoc]
  refine current ?_
  split
  · next h => exact advance (Token.isEnding_of_kind h (by decide)) (hf h)
  · exact stop (fail _)

/-! ### Loops -/

/-- What the rounds of a loop read is read by the loop. -/
theorem rounds {round : σ → Parse (Round σ)} {I : List Token → Cursor → σ → Prop}
    (h : ∀ span d x, c.Over span d → I span d x →
      Takes source (round x) d fun later e => Reads.OnRound (I (span ++ later) e))
    {x : σ} (hx : I [] c x) : Takes source (Parse.rounds round x) c I := by
  have upTo (n : Nat) : ∀ span d x, c.Over span d → I span d x →
      Takes source (roundsUpTo round n x) d fun later => I (span ++ later) := by
    induction n with
    | zero => exact fun _ _ _ _ _ => throw _
    | succ n ih =>
      intro span d x crossed hx
      refine (h span d x crossed hx).bind fun later e r crossed' hr => ?_
      cases r with
      | again y =>
        refine (ih (span ++ later) e y (crossed.trans crossed') hr).mono fun _ _ _ hz => ?_
        rwa [List.append_assoc] at hz
      | done y =>
        refine pure ?_
        rwa [List.append_nil]
  exact fun ended s a t hs hr => upTo _ [] c x (.refl c) hx ended s a t hs hr

theorem itemsUntil {closing : String} {item : σ → Parse σ} {I : List Token → Cursor → σ → Prop}
    (h : ∀ span d x, c.Over span d → I span d x → d.current.isSymbol closing = false →
      Takes source (item x) d fun later => I (span ++ later))
    {x : σ} (hx : I [] c x) : Takes source (Parse.itemsUntil closing item x) c I := by
  refine rounds (fun span d x crossed hx => atSymbol ?_) hx
  split
  · refine pure ?_
    rwa [List.append_nil]
  · next going =>
    refine (h span d x crossed hx (eq_false_of_ne_true going)).bind fun later e y _ hy => pure ?_
    rwa [List.append_nil]

theorem itemsBetweenCommas {closing : String} {item : σ → Parse σ}
    (h : ∀ d x, Takes source (item x) d fun span _ _ => ∀ t ∈ span, t.isBrace = false) (x : σ) :
    Takes source (Parse.itemsBetweenCommas closing item x) c fun span _ _ => ∀ t ∈ span, t.isBrace = false := by
  refine rounds (I := fun span _ _ => ∀ t ∈ span, t.isBrace = false) (fun span d x _ hx => atSymbol ?_)
    (List.forall_mem_nil _)
  split
  · refine pure ?_
    rwa [List.append_nil]
  · refine (h d x).bind fun later e y _ hy => ?_
    have read := List.forall_mem_append.mpr ⟨hx, hy⟩
    rw [Parse.skipSymbol, bind_assoc]
    refine atSymbol ?_
    split
    · next comma =>
      refine (bind_assoc (m := Parse) _ _ _).symm ▸ skip (Token.isEnding_of_isSymbol comma) fun _ _ => pure ?_
      have plain := Token.isBrace_of_isSymbol comma (by decide)
      rw [← List.append_assoc]
      exact List.forall_mem_append.mpr ⟨read, List.forall_mem_singleton.mpr plain⟩
    · refine pure ?_
      rw [List.append_nil]
      exact read

end Takes

end Parse

/-! ## Expressions -/

namespace Expr

open Parse

variable {source : Source} {inner operand : Parse Expr}

theorem stays_number? (token : Token) : Stays source (number? token) := by
  unfold number?
  split
  · exact .throw _
  · exact .pure _
  · split
    · rintro s a t ⟨⟩
    · exact .pure _

/-- An embedded source is read from its own tokens, to their end, and the place outside is kept. -/
theorem parseEmbedded_eq_ok {origin : Token} {text : List Char} {s t : ParseState} {e : Expr} :
    parseEmbedded inner origin text source s = (.ok e, t) ↔
      ∃ tokens u, Token.scan text = .ok tokens ∧
        inner source { s with cursor := .ofTokens (tokens.map ({ · with position := origin.position })) } =
          (.ok e, u) ∧
        u.cursor.current.isEnding = true ∧ t = { u with cursor := s.cursor } := by
  unfold parseEmbedded
  constructor
  -- the stages one by one: the text is scanned, its tokens are read, none is left, and the place is taken back
  · intro read
    cases scanned : Token.scan text with
    | error failure =>
      rw [scanned] at read
      cases read
    | ok tokens =>
      rw [scanned] at read
      dsimp only at read
      rw [bind_run_ok (get_run source s), bind_run_ok (goTo_run _ source s), bind_run] at read
      rcases inside : inner source _ with ⟨failure | e, u⟩
      · rw [inside] at read
        cases read
      · rw [inside] at read
        dsimp only at read
        rw [Parse.atEnding, bind_assoc, bind_run_ok (current_run source u), pure_bind] at read
        split at read
        · next ends =>
          rw [bind_run_ok (goTo_run _ source u)] at read
          cases read
          exact ⟨tokens, u, rfl, inside, ends, rfl⟩
        · cases read
  · rintro ⟨tokens, u, scanned, inside, ends, rfl⟩
    rw [scanned]
    dsimp only
    rw [bind_run_ok (get_run source s), bind_run_ok (goTo_run _ source s), bind_run_ok inside, Parse.atEnding,
      bind_assoc, bind_run_ok (current_run source u), pure_bind, if_pos ends]
    rfl

theorem stays_parseEmbedded (origin : Token) (text : List Char) : Stays source (parseEmbedded inner origin text) := by
  intro s e t read
  obtain ⟨_, _, -, -, -, rfl⟩ := parseEmbedded_eq_ok.mp read
  rfl

theorem stays_parseSegments (origin : Token) : ∀ segments, Stays source (parseSegments inner origin segments)
  | [] => .pure _
  | .literal _ :: later => (stays_parseSegments origin later).bind fun _ => .pure _
  | .embedded text :: later =>
    (stays_parseEmbedded origin text).bind fun _ => (stays_parseSegments origin later).bind fun _ => .pure _

theorem stays_parseText (token : Token) : Stays source (parseText inner token) := by
  refine .bind (.check _) fun _ => ?_
  dsimp only
  split
  · exact (stays_parseSegments token _).bind fun _ => .pure _
  · exact .pure _

variable {c : Cursor}

section

variable (hi : ∀ d, Takes source inner d fun span _ _ => Phrase span)
include hi

theorem takes_parseArguments : Takes source (parseArguments inner) c fun span _ _ => Phrase span := by
  have argument (d : Cursor) (args : List Expr) :
      Takes source (addArgument inner args) d fun span _ _ => ∀ t ∈ span, t.isBrace = false := by
    rw [addArgument, adding, bind_assoc]
    refine (hi d).bind fun span e _ _ phrase => ?_
    rw [pure_bind]
    refine .check _ (.pure ?_)
    rw [List.append_nil]
    exact phrase.plain
  refine .expectSymbol fun opening d _ => (Takes.itemsBetweenCommas argument []).bind fun span e args _ plain => ?_
  refine .expectSymbol fun closing d' _ => .pure ?_
  refine .cons (Token.isBrace_of_isSymbol opening (by decide)) ?_
  have last := Token.isBrace_of_isSymbol closing (by decide)
  exact List.forall_mem_append.mpr ⟨plain, List.forall_mem_singleton.mpr last⟩

theorem takes_parseWord (kind : c.current.kind = .word) :
    Takes source (parseWord inner c.current) c fun span _ _ => Phrase span := by
  have plain : c.current.isBrace = false := Token.isBrace_of_kind (by rw [kind]; decide)
  have goesOn : c.current.isEnding = false := Token.isEnding_of_kind kind (by decide)
  have alone : Phrase [c.current] := .cons plain (List.forall_mem_nil _)
  refine .skip goesOn fun d _ => ?_
  dsimp only
  split
  · exact .pure alone
  · refine .after (stays_number? _) fun number => ?_
    split
    · exact .pure alone
    · split
      · refine .check _ (.atSymbol ?_)
        split
        · refine (takes_parseArguments hi).bind fun span _ _ _ phrase => .pure ?_
          rw [List.append_nil]
          exact .cons plain phrase.plain
        · exact .pure alone
      · exact .stop (.failAt _ _)

theorem takes_parseOperandWith : Takes source (parseOperandWith inner) c fun span _ _ => Phrase span := by
  refine .current ?_
  split
  · next kind =>
    refine .skip (Token.isEnding_of_kind kind (by decide)) fun d _ => ?_
    rw [← bind_pure (parseText inner c.current)]
    refine .after (stays_parseText _) fun _ => .pure ?_
    exact .cons (Token.isBrace_of_kind (by rw [kind]; decide)) (List.forall_mem_nil _)
  · next kind => exact takes_parseWord hi kind
  · exact .fail _

end

theorem takes_parseWith (ho : ∀ d, Takes source operand d fun span _ _ => Phrase span) :
    Takes source (parseWith operand) c fun span _ _ => Phrase span := by
  refine .atSymbol (.atWord ?_)
  split
  · next negated =>
    -- the sign of a negation is a symbol or a word
    have mark : c.current.isBrace = false ∧ c.current.isEnding = false := by
      rcases (Bool.or_eq_true _ _).mp negated with symbol | word
      · exact ⟨Token.isBrace_of_isSymbol symbol (by decide), Token.isEnding_of_isSymbol symbol⟩
      · exact ⟨Token.isBrace_of_isWord word, Token.isEnding_of_isWord word⟩
    refine .skip mark.2 fun d _ => (ho d).bind fun span _ _ _ phrase => .pure ?_
    rw [List.append_nil]
    exact .cons mark.1 phrase.plain
  · refine (ho c).bind fun span d left _ phrase => .current ?_
    split
    · next op sign =>
      obtain ⟨plain, goesOn⟩ := Token.of_operator? sign
      refine .skip goesOn fun e _ => (ho e).bind fun later _ right _ phrase' => .pure ?_
      refine ⟨List.append_ne_nil_of_left_ne_nil phrase.nonempty _, ?_⟩
      rw [List.append_nil, List.forall_mem_append, List.forall_mem_cons]
      exact ⟨phrase.plain, plain, phrase'.plain⟩
    · refine .pure ?_
      rw [List.append_nil]
      exact phrase

/-- The expressions inside an operand have one level of nesting less. -/
theorem parseOperand_succ (depth : Nat) : parseOperand (depth + 1) = parseOperandWith (parse depth) := by
  cases depth with
  | zero => rfl
  | succ depth => rfl

mutual

theorem takes_parseOperand (depth : Nat) (c : Cursor) :
    Takes source (parseOperand depth) c fun span _ _ => Phrase span := by
  cases depth with
  | zero => exact .tooDeep
  | succ depth =>
    rw [parseOperand_succ]
    exact takes_parseOperandWith (takes_parse depth)

/-- An expression is some tokens without braces, at least one. -/
theorem takes_parse (depth : Nat) (c : Cursor) : Takes source (parse depth) c fun span _ _ => Phrase span := by
  cases depth with
  | zero => exact .tooDeep
  | succ depth => exact takes_parseWith (takes_parseOperand depth)

end

end Expr

end Screenplay
