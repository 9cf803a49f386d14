/-
Expressions read again. What the expression parser reads depends on the contents of the tokens and on the policy of the
guard only: not on the places of the tokens, nor on the hits so far, nor on the number of levels of nesting, as long as
there are enough of them. An embedded expression is therefore the one that its source is read as where it stands alone.
-/
import Screenplay.Proofs.Parse.Paths
import Screenplay.Proofs.Parse.Spans
import Screenplay.Proofs.Token.Spelling

namespace Screenplay

/-! ## Tokens of the same content -/

namespace Token

variable {t t' : Token}

theorem value_of_content (h : t.content = t'.content) : t.value = t'.value :=
  congrArg (fun content => content.2.1) h

theorem kind_of_content (h : t.content = t'.content) : t.kind = t'.kind :=
  congrArg (fun content => content.1) h

theorem isSymbol_of_content (h : t.content = t'.content) (symbol : String) :
    t.isSymbol symbol = t'.isSymbol symbol := by
  rw [isSymbol, isSymbol, kind_of_content h, value_of_content h]

theorem isWord_of_content (h : t.content = t'.content) (word : String) : t.isWord word = t'.isWord word := by
  rw [isWord, isWord, kind_of_content h, value_of_content h]

theorem isEnding_of_content (h : t.content = t'.content) : t.isEnding = t'.isEnding := by
  rw [isEnding, isEnding, kind_of_content h]

theorem operator?_of_content (h : t.content = t'.content) : t.operator? = t'.operator? := by
  rw [operator?, operator?, kind_of_content h, value_of_content h]

/-- Tokens that are put elsewhere keep their contents. -/
theorem map_content_position (tokens : List Token) (position : Text.Position) :
    (tokens.map ({ · with position })).map content = tokens.map content := by
  rw [List.map_map]
  rfl

end Token

namespace Parse

/-! ## States that are alike -/

/-- States in which the same tokens are left, wherever these stand, under the same policy. -/
structure Alike (s s' : ParseState) : Prop where
  contents : s.cursor.rest.map Token.content = s'.cursor.rest.map Token.content
  policy : s.guard.policy = s'.guard.policy

namespace Alike

variable {s s' : ParseState}

theorem current (h : Alike s s') : s.cursor.current.content = s'.cursor.current.content :=
  (List.cons.inj h.contents).1

theorem later (h : Alike s s') : s.cursor.later.map Token.content = s'.cursor.later.map Token.content :=
  (List.cons.inj h.contents).2

theorem next (h : Alike s s') :
    Alike { s with cursor := s.cursor.next } { s' with cursor := s'.cursor.next } := by
  refine ⟨?_, h.policy⟩
  have later := h.later
  have contents := h.contents
  unfold Cursor.next
  cases hl : s.cursor.later with
  | nil =>
    rw [hl, List.map_nil] at later
    rw [List.map_eq_nil_iff.mp later.symm]
    exact contents
  | cons t ts =>
    rw [hl, List.map_cons] at later
    obtain ⟨t', ts', hl', first, others⟩ := List.map_eq_cons_iff.mp later.symm
    rw [hl']
    exact congrArg₂ List.cons first.symm others.symm

/-- States at the start of tokens with the same contents. -/
theorem ofTokens (s s' : ParseState) {tokens tokens' : List Token}
    (h : tokens.map Token.content = tokens'.map Token.content) (policy : s.guard.policy = s'.guard.policy) :
    Alike { s with cursor := .ofTokens tokens } { s' with cursor := .ofTokens tokens' } := by
  refine ⟨?_, policy⟩
  cases tokens with
  | nil =>
    rw [List.map_eq_nil_iff.mp h.symm]
  | cons t ts =>
    obtain ⟨t', ts', rfl, -, -⟩ := List.map_eq_cons_iff.mp h.symm
    exact h

end Alike

/-! ## Parsers that follow other ones -/

variable {α β γ δ σ : Type}

/-- A parser that follows another one: where the other one succeeds, it succeeds from every state that is alike, their
results are related, and they lead to states that are alike. -/
def Follows (R : α → β → Prop) (n : Parse β) (m : Parse α) : Prop :=
  ∀ source source' s s' a t, Alike s s' → m source s = (.ok a, t) →
    ∃ b t', n source' s' = (.ok b, t') ∧ R a b ∧ Alike t t'

namespace Follows

variable {R : α → β → Prop} {S : γ → δ → Prop} {m : Parse α} {n : Parse β}

/-! ### Steps -/

theorem pure {a : α} {b : β} (h : R a b) : Follows R (Pure.pure b) (Pure.pure a) := by
  rintro source source' s s' _ _ alike ⟨⟩
  exact ⟨b, s', rfl, h, alike⟩

/-- What always fails is followed by anything. -/
theorem failing (h : ∀ source s, ∃ e, (m source s).1 = .error e) : Follows R n m := by
  intro source source' s s' a t _ read
  obtain ⟨e, failed⟩ := h source s
  rw [read] at failed
  cases failed

theorem tooDeep : Follows R n Parse.tooDeep :=
  failing fun _ _ => ⟨_, rfl⟩

theorem fail (cause : ParseCause) : Follows R n (fail cause) :=
  failing fun _ _ => ⟨_, rfl⟩

theorem failAt (token : Token) (cause : ParseCause) : Follows R n (failAt token cause) :=
  failing fun _ _ => ⟨_, rfl⟩

theorem current : Follows (fun t t' => t.content = t'.content) current current := by
  rintro source source' s s' _ _ alike ⟨⟩
  exact ⟨_, s', rfl, alike.current, alike⟩

theorem skip : Follows Eq (discard advance) (discard advance) := by
  rintro source source' s s' _ _ alike ⟨⟩
  exact ⟨(), _, rfl, rfl, alike.next⟩

/-- The same checks pass under the same policy. -/
theorem check (checks : List Check) : Follows Eq (check checks) (check checks) := by
  rintro source source' s s' ⟨⟩ t alike passed
  obtain ⟨admitted, rfl⟩ := check_run_ok.mp passed
  have admitted' : (s'.guard.check checks).1 = .ok () := by
    rw [Guard.check_eq_ok, ← alike.policy]
    exact Guard.check_eq_ok.mp admitted
  refine ⟨(), _, check_run_ok.mpr ⟨admitted', rfl⟩, rfl, alike.contents, ?_⟩
  rw [Guard.check_policy, Guard.check_policy, alike.policy]

/-! ### Composition -/

theorem bind {f : α → Parse γ} {g : β → Parse δ} (h : Follows R n m) (hf : ∀ a b, R a b → Follows S (g b) (f a)) :
    Follows S (n >>= g) (m >>= f) := by
  intro source source' s s' c t alike read
  rw [bind_run] at read
  rcases first : m source s with ⟨e | a, u⟩
  · rw [first] at read
    cases read
  · rw [first] at read
    obtain ⟨b, u', first', related, between⟩ := h source source' s s' a u alike first
    rw [bind_run_ok first']
    exact hf a b related source source' u u' c t between read

/-- Parsers with the same result go on with it in the same way. -/
theorem andThen {m n : Parse α} {f : α → Parse γ} {g : α → Parse δ} (h : Follows Eq n m)
    (hf : ∀ a, Follows S (g a) (f a)) : Follows S (n >>= g) (m >>= f) := by
  refine h.bind ?_
  rintro a _ rfl
  exact hf a

/-! ### Tokens -/

theorem atSymbol (symbol : String) : Follows Eq (atSymbol symbol) (atSymbol symbol) :=
  current.bind fun _ _ h => .pure (Token.isSymbol_of_content h symbol)

theorem atWord (word : String) : Follows Eq (atWord word) (atWord word) :=
  current.bind fun _ _ h => .pure (Token.isWord_of_content h word)

theorem expectSymbol (symbol : String) : Follows Eq (expectSymbol symbol) (expectSymbol symbol) := by
  refine (atSymbol symbol).andThen fun there => ?_
  split
  · exact skip
  · exact fail _

theorem skipSymbol (symbol : String) : Follows Eq (skipSymbol symbol) (skipSymbol symbol) := by
  refine (atSymbol symbol).andThen fun there => ?_
  split
  · exact skip.andThen fun _ => .pure rfl
  · exact .pure rfl

/-! ### Loops -/

theorem roundsUpTo {round round' : σ → Parse (Round σ)} (h : ∀ x, Follows Eq (round' x) (round x)) (n : Nat) (x : σ) :
    Follows Eq (roundsUpTo round' n x) (roundsUpTo round n x) := by
  induction n generalizing x with
  | zero => exact failing fun _ _ => ⟨_, rfl⟩
  | succ n ih =>
    refine (h x).andThen fun r => ?_
    cases r with
    | again y => exact ih y
    | done y => exact .pure rfl

/-- As many tokens are left, so there may be as many rounds. -/
theorem rounds {round round' : σ → Parse (Round σ)} (h : ∀ x, Follows Eq (round' x) (round x)) (x : σ) :
    Follows Eq (rounds round' x) (rounds round x) := by
  intro source source' s s' a t alike read
  have length : s.cursor.later.length = s'.cursor.later.length := by
    simpa using congrArg List.length alike.later
  obtain ⟨b, t', read', related⟩ := roundsUpTo h _ x source source' s s' a t alike read
  rw [length] at read'
  exact ⟨b, t', read', related⟩

theorem itemsBetweenCommas {closing : String} {item item' : σ → Parse σ} (h : ∀ x, Follows Eq (item' x) (item x))
    (x : σ) : Follows Eq (itemsBetweenCommas closing item' x) (itemsBetweenCommas closing item x) := by
  refine rounds (fun x => (atSymbol closing).andThen fun closes => ?_) x
  split
  · exact .pure rfl
  · refine (h x).andThen fun y => (skipSymbol ",").andThen fun comma => ?_
    split
    · exact .pure rfl
    · exact .pure rfl

end Follows

end Parse

/-! ## Expressions -/

namespace Expr

open Parse

theorem follows_number? {token token' : Token} (h : token.value = token'.value) :
    Follows Eq (number? token') (number? token) := by
  unfold number?
  rw [h]
  split
  · exact .failing fun _ _ => ⟨_, rfl⟩
  · exact .pure rfl
  · split
    · exact .failAt _ _
    · exact .pure rfl

section

variable {inner inner' : Parse Expr} (hi : Follows Eq inner' inner)
include hi

/-- The tokens of an embedded source stand elsewhere, but are the same. -/
theorem follows_parseEmbedded (origin origin' : Token) (text : List Char) :
    Follows Eq (parseEmbedded inner' origin' text) (parseEmbedded inner origin text) := by
  intro source source' s s' e t alike read
  obtain ⟨tokens, u, scanned, inside, ends, rfl⟩ := parseEmbedded_eq_ok.mp read
  have inner_alike : Alike { s with cursor := .ofTokens (tokens.map ({ · with position := origin.position })) }
      { s' with cursor := .ofTokens (tokens.map ({ · with position := origin'.position })) } :=
    .ofTokens s s' (by rw [Token.map_content_position, Token.map_content_position]) alike.policy
  obtain ⟨_, u', inside', rfl, after⟩ := hi source source' _ _ e u inner_alike inside
  rw [Token.isEnding_of_content after.current] at ends
  exact ⟨e, _, parseEmbedded_eq_ok.mpr ⟨tokens, u', scanned, inside', ends, rfl⟩, rfl, alike.contents, after.policy⟩

theorem follows_parseSegments (origin origin' : Token) : ∀ segments : List Segment,
    Follows Eq (parseSegments inner' origin' segments) (parseSegments inner origin segments)
  | [] => .pure rfl
  | .literal _ :: later => (follows_parseSegments origin origin' later).andThen fun _ => .pure rfl
  | .embedded text :: later =>
    (follows_parseEmbedded hi origin origin' text).andThen fun _ =>
      (follows_parseSegments origin origin' later).andThen fun _ => .pure rfl

theorem follows_parseText {token token' : Token} (h : token.value = token'.value) :
    Follows Eq (parseText inner' token') (parseText inner token) := by
  unfold parseText
  rw [h]
  refine (Follows.check _).andThen fun _ => ?_
  dsimp only
  split
  · exact (follows_parseSegments hi token token' _).andThen fun _ => .pure rfl
  · exact .pure rfl

theorem follows_parseArguments : Follows Eq (parseArguments inner') (parseArguments inner) := by
  have argument (args : List Expr) : Follows Eq (addArgument inner' args) (addArgument inner args) :=
    .andThen (hi.andThen fun _ => .pure rfl) fun _ => (Follows.check _).andThen fun _ => .pure rfl
  exact (Follows.expectSymbol "(").andThen fun _ => (Follows.itemsBetweenCommas argument []).andThen fun _ =>
    (Follows.expectSymbol ")").andThen fun _ => .pure rfl

theorem follows_parseWord {token token' : Token} (h : token.value = token'.value) :
    Follows Eq (parseWord inner' token') (parseWord inner token) := by
  unfold parseWord
  rw [h]
  refine Follows.skip.andThen fun _ => ?_
  dsimp only
  split
  · exact .pure rfl
  · refine (follows_number? h).andThen fun number => ?_
    split
    · exact .pure rfl
    · split
      · refine (Follows.check _).andThen fun _ => (Follows.atSymbol "(").andThen fun called => ?_
        split
        · exact (follows_parseArguments hi).andThen fun _ => .pure rfl
        · exact .pure rfl
      · exact .failing fun _ _ => ⟨_, rfl⟩

theorem follows_parseOperandWith : Follows Eq (parseOperandWith inner') (parseOperandWith inner) := by
  refine Follows.current.bind fun token token' content => ?_
  have value := Token.value_of_content content
  rw [← Token.kind_of_content content]
  cases token.kind with
  | string => exact Follows.skip.andThen fun _ => follows_parseText hi value
  | word => exact follows_parseWord hi value
  | _ => exact .fail _

end

theorem follows_parseWith {operand operand' : Parse Expr} (ho : Follows Eq operand' operand) :
    Follows Eq (parseWith operand') (parseWith operand) := by
  refine (Follows.atSymbol "!").andThen fun sign => (Follows.atWord "not").andThen fun word => ?_
  split
  · exact Follows.skip.andThen fun _ => ho.andThen fun _ => .pure rfl
  · refine ho.andThen fun left => Follows.current.bind fun token token' content => ?_
    rw [← Token.operator?_of_content content]
    cases token.operator? with
    | some op => exact Follows.skip.andThen fun _ => ho.andThen fun _ => .pure rfl
    | none => exact .pure rfl

mutual

theorem follows_parseOperand {depth depth' : Nat} (h : depth ≤ depth') :
    Follows Eq (parseOperand depth') (parseOperand depth) := by
  cases depth with
  | zero => exact .tooDeep
  | succ depth =>
    obtain ⟨depth', rfl⟩ := Nat.exists_eq_add_one_of_ne_zero (Nat.ne_zero_of_lt h)
    rw [parseOperand_succ, parseOperand_succ]
    exact follows_parseOperandWith (follows_parse (Nat.le_of_succ_le_succ h))

/-- With more levels of nesting, the same expressions are read. -/
theorem follows_parse {depth depth' : Nat} (h : depth ≤ depth') : Follows Eq (parse depth') (parse depth) := by
  cases depth with
  | zero => exact .tooDeep
  | succ depth =>
    obtain ⟨depth', rfl⟩ := Nat.exists_eq_add_one_of_ne_zero (Nat.ne_zero_of_lt h)
    exact follows_parseWith (follows_parseOperand (Nat.le_of_succ_le_succ h))

end

end Expr

/-! ## Embedded expressions -/

namespace Policy

open Parse

/-- An embedded expression is what its source is read as where it stands alone, with nothing left over but the end. -/
theorem readExpr_of_parseEmbedded {depth : Nat} (hd : depth ≤ maxDepth) {origin : Token} {text : List Char}
    {source : Source} {s t : ParseState} {e : Expr}
    (read : Expr.parseEmbedded (Expr.parse depth) origin text source s = (.ok e, t)) :
    ∃ ending, ending.isEnding = true ∧ s.guard.policy.readExpr (.ofList text) = .ok (e, [ending]) := by
  obtain ⟨tokens, u, scanned, inside, ends, rfl⟩ := Expr.parseEmbedded_eq_ok.mp read
  have ended : Ended tokens := .of_scan scanned
  let alone : Source := .ofText (.ofList text) none
  let start : ParseState := ⟨.ofTokens tokens, ⟨s.guard.policy, []⟩, 0⟩
  have rest : start.cursor.rest = tokens := Cursor.rest_ofTokens ended.ne_nil
  have alike : Alike { s with cursor := .ofTokens (tokens.map ({ · with position := origin.position })) } start :=
    .ofTokens s start (Token.map_content_position _ _) rfl
  obtain ⟨_, u', inside', rfl, after⟩ := Expr.follows_parse hd source alone _ start e u alike inside
  -- the tokens that are left start with the end, which is the last one
  have ends' : u'.cursor.current.isEnding = true := by rwa [← Token.isEnding_of_content after.current]
  obtain ⟨span, crossed, -⟩ := Expr.takes_parse maxDepth start.cursor (by rwa [rest]) start e u' rfl inside'
  have left : u'.cursor.rest = [u'.cursor.current] := by
    have ended' : Ended (u'.cursor.current :: u'.cursor.later) := crossed.ended (by rwa [rest])
    cases hl : u'.cursor.later with
    | nil => rw [Cursor.rest, hl]
    | cons t ts =>
      rw [hl] at ended'
      cases ended' with
      | cons goesOn => rw [ends'] at goesOn; cases goesOn
  refine ⟨_, ends', ?_⟩
  have tokenized : alone.tokens = .ok tokens := by
    rw [Source.tokens_eq_ok]
    change Token.scan (String.ofList text).toList = _
    rw [String.toList_ofList, scanned]
  rw [readExpr, Policy.read, tokenized]
  dsimp only [runOn]
  rw [inside', ← left]
  rfl

end Policy

end Screenplay
