/-
Judgements about parsers. Every parser of the grammar is put together from the same few steps, so
what the steps have and what composition and loops keep, every parser has: the rules of a judgement
say just that. A judgement may tell how far a parser moves when it succeeds, and which tokens it may
come across.
-/
import Screenplay.Program.Parser

namespace Screenplay

/-! ## Tokens -/

namespace Token

variable {t : Token} {symbol other word : String}

theorem isSymbol_iff : t.isSymbol symbol = true ↔ t.kind = .symbol ∧ t.value = symbol := by
  simp [isSymbol]

theorem isWord_iff : t.isWord word = true ↔ t.kind = .word ∧ t.value = word := by
  simp [isWord]

theorem isSymbol_of_kind (h : t.kind ≠ .symbol) : t.isSymbol symbol = false := by
  simp [isSymbol, h]

/-- A token is one symbol at most. -/
theorem isSymbol_of_ne (h : t.isSymbol symbol = true) (ne : symbol ≠ other) : t.isSymbol other = false := by
  simp [isSymbol, (isSymbol_iff.mp h).2, ne]

theorem isEnding_of_kind {kind : TokenKind} (h : t.kind = kind) (hk : kind ≠ .ending) : t.isEnding = false := by
  simpa [isEnding, h] using hk

theorem isEnding_of_isSymbol (h : t.isSymbol symbol = true) : t.isEnding = false :=
  isEnding_of_kind (isSymbol_iff.mp h).1 (by decide)

theorem isEnding_of_isWord (h : t.isWord word = true) : t.isEnding = false :=
  isEnding_of_kind (isWord_iff.mp h).1 (by decide)

end Token

namespace Parse

variable {α β σ : Type}

/-! ## Paces -/

/-- How far a parser moves when it succeeds. No parser goes back. -/
inductive Pace where
  /-- maybe not at all -/
  | stays
  /-- over a token at least, unless it starts at the end of the text -/
  | moves
  /-- over a token at least -/
  | advances
deriving DecidableEq

/-- The pace left to a parser that has looked at the next token: where the text does not end, moving
is advancing. -/
def Pace.before (k : Pace) (t : Token) : Pace :=
  match k with
  | .stays => .stays
  | .moves => .moves
  | .advances => if t.isEnding then .advances else .moves

/-! ## Rules for the steps -/

/-- The rules of a judgement for the steps of a parser and for what is put together from them. The
tokens that a parser comes across are known ones. -/
structure Steps (Known : Token → Prop) (P : Pace → ∀ {α : Type}, Parse α → Prop) : Prop where
  any {α : Type} {k : Pace} {m : Parse α} : P .advances m → P k m
  slow {α : Type} {k : Pace} {m : Parse α} : P k m → P .stays m
  pure {α : Type} (a : α) : P .stays (Pure.pure a)
  input {α : Type} {k : Pace} (e : InputError) : P k (throw (.input e) : Parse α)
  refuse {α : Type} {k : Pace} (violation : Violation) : P k (refuse violation : Parse α)
  failAt {α : Type} {k : Pace} {t : Token} (known : Known t) (cause : ParseCause) :
    P k (failAt t cause : Parse α)
  /-- what follows a parser that keeps the pace need not move -/
  bind {α β : Type} {k : Pace} {m : Parse α} {f : α → Parse β} :
    P k m → (∀ a, P .stays (f a)) → P k (m >>= f)
  /-- a pace may be kept after a parser that need not move -/
  later {α β : Type} {k : Pace} {m : Parse α} {f : α → Parse β} :
    P .stays m → (∀ a, P k (f a)) → P k (m >>= f)
  read : P .stays (MonadReader.read : Parse Source)
  previous : P .stays previous
  following : P .stays following
  current {β : Type} {k : Pace} {f : Token → Parse β} :
    (∀ t, Known t → P (k.before t) (f t)) → P k (current >>= f)
  advance {β : Type} {f : Token → Parse β} :
    (∀ t, Known t → P .stays (f t)) → P .moves (advance >>= f)
  check (checks : List Check) : P .stays (check checks)
  orElseFrom {α : Type} {k : Pace} {first second : Parse α} :
    P k first → P k second → P k (orElseFrom first second)

namespace Steps

variable {Known : Token → Prop} {P : Pace → ∀ {α : Type}, Parse α → Prop} {k : Pace} {m : Parse α}
  {f : Token → Parse β}

/-! ### Composition -/

theorem map (h : Steps Known P) (f : α → β) (hm : P k m) : P k (f <$> m) :=
  h.bind hm fun _ => h.pure _

theorem discard (h : Steps Known P) (hm : P k m) : P k (discard m) :=
  h.map _ hm

theorem seqRight {n : Parse β} (h : Steps Known P) (hm : P .stays m) (hn : P k n) : P k (m *> n) :=
  h.later hm fun _ => hn

theorem adding (h : Steps Known P) (hm : P k m) (items : List α) : P k (adding m items) :=
  h.bind hm fun _ => h.pure _

/-! ### Failing -/

theorem fail (h : Steps Known P) (cause : ParseCause) : P k (fail cause : Parse α) :=
  h.current fun _ ht => h.failAt ht cause

theorem tooDeep (h : Steps Known P) : P k (tooDeep : Parse α) :=
  h.refuse _

/-! ### Tokens -/

theorem token (h : Steps Known P) : P .moves Parse.advance :=
  bind_pure Parse.advance ▸ h.advance fun t _ => h.pure t

/-- Reading the next token, whatever it is. -/
theorem skip (h : Steps Known P) : P .moves (Functor.discard Parse.advance) :=
  h.advance fun _ _ => h.pure _

theorem atSymbol (h : Steps Known P) (symbol : String) : P .stays (atSymbol symbol) :=
  h.current fun _ _ => h.pure _

theorem atWord (h : Steps Known P) (word : String) : P .stays (atWord word) :=
  h.current fun _ _ => h.pure _

theorem atEnding (h : Steps Known P) : P .stays atEnding :=
  h.current fun _ _ => h.pure _

/-- Where the text does not end, a parser that moves keeps every pace. -/
theorem inside (h : Steps Known P) {t : Token} (ht : t.isEnding = false) (hm : P .moves m) :
    P (k.before t) m := by
  cases k with
  | stays => exact h.slow hm
  | moves => exact hm
  | advances =>
    rw [Pace.before, ht]
    exact hm

theorem insideIf (h : Steps Known P) {expected : Prop} [Decidable expected] {t : Token}
    (ht : expected → t.isEnding = false) (hm : P .moves m) (cause : ParseCause) :
    P (k.before t) (if expected then m else Parse.fail cause) := by
  split
  · next he => exact h.inside (ht he) hm
  · exact h.fail cause

theorem expectSymbol (h : Steps Known P) (symbol : String) : P k (expectSymbol symbol) :=
  h.current fun _ _ => h.insideIf Token.isEnding_of_isSymbol h.skip _

theorem skipSymbol (h : Steps Known P) (symbol : String) : P .stays (skipSymbol symbol) := by
  refine h.later (h.atSymbol symbol) fun b => ?_
  split
  · exact h.slow (h.bind h.skip fun _ => h.pure _)
  · exact h.pure _

/-- Reading an expected token, which the rest knows. -/
theorem expect (h : Steps Known P) {expected : Token → Prop} [DecidablePred expected]
    (ht : ∀ t, expected t → t.isEnding = false) (cause : ParseCause)
    (hf : ∀ t, Known t → P .stays (f t)) :
    P k (Parse.current >>= fun t => (if expected t then Parse.advance else Parse.fail cause) >>= f) := by
  refine h.current fun t _ => ?_
  rw [apply_ite (· >>= f)]
  exact h.insideIf (ht t) (h.advance hf) cause

theorem expectWord (h : Steps Known P) (word : String) (hf : ∀ t, Known t → P .stays (f t)) :
    P k (expectWord word >>= f) :=
  h.expect (fun _ => Token.isEnding_of_isWord) _ hf

theorem word (h : Steps Known P) (what : String) (hf : ∀ t, Known t → P .stays (f t)) :
    P k (word what >>= f) :=
  h.expect (fun t (ht : t.kind = .word) => Token.isEnding_of_kind ht (by decide)) _ hf

theorem keyword (h : Steps Known P) (word : String) : P k (Parse.expectWord word) :=
  bind_pure (Parse.expectWord word) ▸ h.expectWord word fun t _ => h.pure t

theorem anyWord (h : Steps Known P) (what : String) : P k (Parse.word what) :=
  bind_pure (Parse.word what) ▸ h.word what fun t _ => h.pure t

theorem string (h : Steps Known P) (what : String) (hf : ∀ t, Known t → P .stays (f t)) :
    P k (string what >>= f) :=
  h.expect (fun t (ht : t.kind = .string) => Token.isEnding_of_kind ht (by decide)) _ hf

theorem name (h : Steps Known P) (what : String) : P k (name what) := by
  refine h.current fun t _ => h.insideIf (fun ht => ?_) (h.advance fun _ _ => h.pure _) _
  rcases ht with ht | ht <;> exact Token.isEnding_of_kind ht (by decide)

theorem beforeEnding (h : Steps Known P) (hm : P .moves m) : P k (beforeEnding m) := by
  refine h.any ?_
  show P .advances (Parse.current >>= fun t => if t.isEnding then Parse.fail _ else m)
  refine h.current fun t _ => ?_
  rw [Pace.before]
  split
  · exact h.fail _
  · exact hm

end Steps

/-! ## Rules for the grammar -/

/-- The rules of a judgement for all that the parsers of the grammar are put together from. The items
of loops read something. -/
structure Rules (Known : Token → Prop) (P : Pace → ∀ {α : Type}, Parse α → Prop) : Prop
    extends Steps Known P where
  itemsUntil {σ : Type} {closing : String} {item : σ → Parse σ} :
    (∀ s, P .advances (item s)) → ∀ s, P .stays (itemsUntil closing item s)
  itemsBetweenCommas {σ : Type} {closing : String} {item : σ → Parse σ} :
    (∀ s, P .advances (item s)) → ∀ s, P .stays (itemsBetweenCommas closing item s)
  itemsFrom {σ : Type} {start : String} {item : σ → Parse σ} :
    (∀ s, P .advances (item s)) → ∀ s, P .stays (itemsFrom start item s)
  embedded {inner : Parse Expr} {origin : Token} {source : List Char} (known : Known origin)
    (piece : .embedded source ∈ Segment.ofText origin.value.toList) :
    P .stays inner → P .stays (Expr.parseEmbedded inner origin source)
  code : P .moves Action.parseCode
  /-- counting a state variable -/
  counted (v : StateVar) : P .stays (do
    modify fun s => { s with declared := s.declared + 1 }
    Parse.check [Check.stateCount (← get).declared]
    return v)
  /-- measuring the tree of a screen -/
  measured (screen : Screen) : P .stays (do
    settle ((← get).guard.checkTree screen.name screen.ui)
    return screen)

theorem Rules.braced {Known : Token → Prop} {P : Pace → ∀ {α : Type}, Parse α → Prop}
    (h : Rules Known P) {k : Pace} {item : Parse α} (hi : P .moves item) : P k (braced item) :=
  h.bind (h.expectSymbol _) fun _ =>
    h.bind (h.itemsUntil (fun items => h.adding (h.beforeEnding hi) items) _) fun _ =>
      h.bind (h.expectSymbol _) fun _ => h.pure _

end Parse

end Screenplay
