/-
Blocks of actions and the tokens that they are read from. A block that is read ends with the brace that closes it when
braces are counted, and its statements share out the tokens in between: each one is read from some tokens, at least
one, and the next statement starts where it ends. Raw code is the source text of its tokens, and an assignment keeps
that of the tokens after its sign.
-/
import Mathlib.Data.List.Forall2
import Screenplay.Proofs.Parse.Spans
import Screenplay.Proofs.Token.Spelling

namespace Screenplay

open Parse

/-! ## Counting braces -/

namespace Token

/-- The number of open blocks after a token, where so many are open before it; none if the token closes one and none
is open. -/
def countBlocks (opened : Nat) (t : Token) : Option Nat :=
  if t.isSymbol "\x7b" then some (opened + 1)
  else if t.isSymbol "\x7d" then (if opened = 0 then none else some (opened - 1))
  else some opened

/-- Counted one after the other, as many braces open as close in some tokens, and none of them closes a block that is
not opened among them. -/
def Balanced (tokens : List Token) : Prop := tokens.foldlM countBlocks 0 = some 0

theorem countBlocks_of_isBrace {t : Token} (h : t.isBrace = false) (opened : Nat) :
    countBlocks opened t = some opened := by
  simp only [isBrace, Bool.or_eq_false_iff] at h
  simp [countBlocks, h]

theorem countBlocks_open {t : Token} (h : t.isSymbol "\x7b" = true) (opened : Nat) :
    countBlocks opened t = some (opened + 1) := by
  rw [countBlocks, if_pos h]

theorem countBlocks_close {t : Token} (h : t.isSymbol "\x7d" = true) (opened : Nat) :
    countBlocks (opened + 1) t = some opened := by
  have other : t.isSymbol "\x7b" = false := isSymbol_of_ne h (by decide)
  simp [countBlocks, h, other]

/-- A token that closes no block where none is open. -/
theorem countBlocks_inside {t : Token} {opened : Nat} (h : opened = 0 → t.isSymbol "\x7d" = false) :
    countBlocks opened t = some (if t.isSymbol "\x7b" then opened + 1
      else if t.isSymbol "\x7d" then opened - 1 else opened) := by
  unfold countBlocks
  split
  · rfl
  · split
    · next closes =>
      have inside : opened ≠ 0 := by
        intro outside
        rw [h outside] at closes
        cases closes
      rw [if_neg inside]
    · rfl

/-- The same token where one more block is open. -/
theorem countBlocks_succ {t : Token} {opened after : Nat} (h : countBlocks opened t = some after) :
    countBlocks (opened + 1) t = some (after + 1) := by
  unfold countBlocks at h ⊢
  split at h
  · next opens =>
    rw [if_pos opens]
    cases h
    rfl
  · next other =>
    rw [if_neg other]
    split at h
    · next closes =>
      rw [if_pos closes, if_neg (Nat.succ_ne_zero _)]
      split at h
      · cases h
      · next inside =>
        cases h
        rw [Option.some.injEq]
        omega
    · next plain =>
      rw [if_neg plain]
      cases h
      rfl

theorem foldlM_countBlocks_succ {tokens : List Token} {opened left : Nat}
    (h : tokens.foldlM countBlocks opened = some left) :
    tokens.foldlM countBlocks (opened + 1) = some (left + 1) := by
  induction tokens generalizing opened with
  | nil =>
    cases h
    rfl
  | cons t tokens ih =>
    rw [List.foldlM_cons] at h ⊢
    obtain ⟨after, counted, later⟩ := Option.bind_eq_some_iff.mp h
    rw [countBlocks_succ counted]
    exact ih later

namespace Balanced

variable {tokens later : List Token}

theorem nil : Balanced [] := rfl

theorem append (h : Balanced tokens) (h' : Balanced later) : Balanced (tokens ++ later) := by
  rw [Balanced, List.foldlM_append, h]
  exact h'

theorem of_plain (h : ∀ t ∈ tokens, t.isBrace = false) : Balanced tokens := by
  induction tokens with
  | nil => exact nil
  | cons t tokens ih =>
    obtain ⟨first, later⟩ := List.forall_mem_cons.mp h
    rw [Balanced, List.foldlM_cons, countBlocks_of_isBrace first]
    exact ih later

/-- Braces around balanced tokens. -/
theorem braces {opening closing : Token} (opens : opening.isSymbol "\x7b" = true) (h : Balanced tokens)
    (closes : closing.isSymbol "\x7d" = true) : Balanced (opening :: tokens ++ [closing]) := by
  rw [Balanced, List.foldlM_append, List.foldlM_cons, countBlocks_open opens]
  change (tokens.foldlM countBlocks 1 >>= fun opened => [closing].foldlM countBlocks opened) = some 0
  rw [foldlM_countBlocks_succ h]
  change (countBlocks 1 closing >>= fun opened => some opened) = some 0
  rw [countBlocks_close closes]
  rfl

end Balanced

end Token

/-! ## Tokens of statements -/

/-- The source text of some tokens: from the start of the first one to the end of the last one. -/
def Source.textOf (source : Source) (tokens : List Token) : String :=
  source.slice ((tokens.head?.map (·.start)).getD 0) ((tokens.getLast?.map (·.stop)).getD 0)

theorem Cursor.Over.slice_eq {c d : Cursor} {span : List Token} (h : c.Over span d) (nonempty : span ≠ [])
    (source : Source) : source.slice c.current.start d.last.stop = source.textOf span := by
  rw [Source.textOf, h.head?_eq nonempty, h.last, List.getLast?_eq_some_getLast nonempty]
  rfl

namespace Action

mutual

/-- The tokens that a statement is read from. -/
inductive Statement (source : Source) : List Token → Action → Prop where
  | navigate {tokens : List Token} (phrase : Phrase tokens) (navigation : Navigation) :
    Statement source tokens (.navigate navigation)
  | call {tokens : List Token} (phrase : Phrase tokens) (function : String) (args : List Expr) :
    Statement source tokens (.call function args)
  /-- a path, the sign of an assignment, and the tokens of an expression -/
  | update {name sign : Token} {tokens : List Token} (word : name.kind = .word)
    (assigns : sign.isSymbol "=" = true) (phrase : Phrase tokens) (value : Expr) :
    Statement source (name :: sign :: tokens) (.update name.value value (source.textOf tokens))
  | branch {keyword : Token} {tokens thenTokens elseTokens : List Token} {thenActions elseActions : List Action}
    (word : keyword.isWord "if" = true) (phrase : Phrase tokens) (condition : Expr)
    (thenBlock : Block source thenTokens thenActions) (elseBlock : Otherwise source elseTokens elseActions) :
    Statement source (keyword :: tokens ++ thenTokens ++ elseTokens) (.branch condition thenActions elseActions)
  | loop {header tokens : List Token} {body : List Action} (phrase : Phrase header) (name range : String)
    (block : Block source tokens body) : Statement source (header ++ tokens) (.loop name range body)
  /-- anything in which the braces are balanced -/
  | code {tokens : List Token} (nonempty : tokens ≠ []) (balanced : Token.Balanced tokens) :
    Statement source tokens (.code (source.textOf tokens))

/-- The tokens that a block is read from: statements between braces. -/
inductive Block (source : Source) : List Token → List Action → Prop where
  | braces {opening closing : Token} {tokens : List Token} {actions : List Action}
    (opens : opening.isSymbol "\x7b" = true) (statements : Statements source tokens actions)
    (closes : closing.isSymbol "\x7d" = true) : Block source (opening :: tokens ++ [closing]) actions

/-- The tokens that the other block of a conditional is read from. -/
inductive Otherwise (source : Source) : List Token → List Action → Prop where
  | none : Otherwise source [] []
  | block {keyword : Token} {tokens : List Token} {actions : List Action} (word : keyword.isWord "else" = true)
    (block : Block source tokens actions) : Otherwise source (keyword :: tokens) actions
  | chained {keyword : Token} {tokens : List Token} {a : Action} (word : keyword.isWord "else" = true)
    (statement : Statement source tokens a) : Otherwise source (keyword :: tokens) [a]

/-- The tokens that statements are read from, one after the other. -/
inductive Statements (source : Source) : List Token → List Action → Prop where
  | nil : Statements source [] []
  | concat {tokens span : List Token} {actions : List Action} {a : Action}
    (earlier : Statements source tokens actions) (nonempty : span ≠ []) (statement : Statement source span a) :
    Statements source (tokens ++ span) (actions ++ [a])

end

variable {source : Source}

mutual

theorem Statement.balanced {tokens : List Token} {a : Action} :
    Statement source tokens a → Token.Balanced tokens
  | .navigate phrase _ => .of_plain phrase.plain
  | .call phrase _ _ => .of_plain phrase.plain
  | .update word assigns phrase _ =>
    .of_plain (List.forall_mem_cons.mpr ⟨Token.isBrace_of_kind (by rw [word]; decide),
      List.forall_mem_cons.mpr ⟨Token.isBrace_of_isSymbol assigns (by decide), phrase.plain⟩⟩)
  | .branch word phrase _ thenBlock elseBlock =>
    have header := Token.Balanced.of_plain (Phrase.cons (Token.isBrace_of_isWord word) phrase.plain).plain
    (header.append thenBlock.balanced).append elseBlock.balanced
  | .loop phrase _ _ block => (Token.Balanced.of_plain phrase.plain).append block.balanced
  | .code _ balanced => balanced

theorem Block.balanced {tokens : List Token} {actions : List Action} :
    Block source tokens actions → Token.Balanced tokens
  | .braces opens statements closes => .braces opens statements.balanced closes

theorem Otherwise.balanced {tokens : List Token} {actions : List Action} :
    Otherwise source tokens actions → Token.Balanced tokens
  | .none => .nil
  | .block word block =>
    have keyword := Token.Balanced.of_plain (List.forall_mem_singleton.mpr (Token.isBrace_of_isWord word))
    keyword.append block.balanced
  | .chained word statement =>
    have keyword := Token.Balanced.of_plain (List.forall_mem_singleton.mpr (Token.isBrace_of_isWord word))
    keyword.append statement.balanced

theorem Statements.balanced {tokens : List Token} {actions : List Action} :
    Statements source tokens actions → Token.Balanced tokens
  | .nil => .nil
  | .concat earlier _ statement => earlier.balanced.append statement.balanced

end

theorem Statement.nonempty {tokens : List Token} {a : Action} (h : Statement source tokens a) : tokens ≠ [] := by
  cases h with
  | navigate phrase => exact phrase.nonempty
  | call phrase => exact phrase.nonempty
  | update => exact List.cons_ne_nil _ _
  | branch => exact List.cons_ne_nil _ _
  | loop phrase => exact List.append_ne_nil_of_left_ne_nil phrase.nonempty _
  | code nonempty => exact nonempty

/-- Statements share out their tokens. -/
theorem Statements.exists_spans {tokens : List Token} {actions : List Action} :
    Statements source tokens actions →
      ∃ spans : List (List Token), spans.flatten = tokens ∧ (∀ span ∈ spans, span ≠ []) ∧
        List.Forall₂ (Statement source) spans actions
  | .nil => ⟨[], rfl, List.forall_mem_nil _, .nil⟩
  | @Statements.concat _ _ span _ _ earlier nonempty statement => by
    obtain ⟨spans, rfl, all, shared⟩ := earlier.exists_spans
    refine ⟨spans ++ [span], ?_, ?_, List.rel_append shared (.cons statement .nil)⟩
    · rw [List.flatten_concat]
    · exact List.forall_mem_append.mpr ⟨all, List.forall_mem_singleton.mpr nonempty⟩

end Action

/-! ## Reading raw code -/

namespace Cursor

/-- Raw code that ends before the end of the text has closed all the blocks that are open at its start. -/
theorem afterCode_over (line depth : Nat) (last current : Token) (later : List Token)
    (ended : Ended (current :: later)) :
    ∃ span, Over ⟨last, current, later⟩ span (afterCode line depth last current later) ∧
      ((afterCode line depth last current later).current.isEnding = false →
        span.foldlM Token.countBlocks depth = some 0) := by
  -- the induction is on the tokens that follow, with any number of blocks open
  induction later generalizing depth last current with
  | nil =>
    have ends : current.isEnding = true := by
      by_contra goesOn
      exact ended.later_ne_nil (eq_false_of_ne_true goesOn) rfl
    rw [afterCode, if_pos (.inl ends)]
    exact ⟨[], .refl _, fun goesOn => by rw [ends] at goesOn; cases goesOn⟩
  | cons t ts ih =>
    rw [afterCode]
    split
    · next stops =>
      refine ⟨[], .refl _, fun goesOn => ?_⟩
      rcases stops with ends | ⟨outside, -⟩
      · rw [goesOn] at ends
        cases ends
      · rw [outside]
        rfl
    · next going =>
      rw [not_or, not_and, not_or] at going
      obtain ⟨goesOn, inside⟩ := going
      have ended' : Ended (t :: ts) :=
        ended.suffix (List.suffix_cons _ _) (List.cons_ne_nil _ _)
      obtain ⟨span, crossed, closed⟩ := ih (if current.isSymbol "\x7b" then depth + 1
        else if current.isSymbol "\x7d" then depth - 1 else depth) current t ended'
      refine ⟨current :: span, ?_, fun ends => ?_⟩
      · exact (Over.next (c := ⟨last, current, t :: ts⟩) (List.cons_ne_nil _ _)).trans crossed
      · -- a brace that closes is read only where a block is open
        rw [List.foldlM_cons, Token.countBlocks_inside fun outside => eq_false_of_ne_true (inside outside).1]
        exact closed ends

/-- Raw code is some tokens, at least one, and unless it goes on to the end of the text, its braces are balanced. -/
theorem skipCode_over {c : Cursor} (ended : Ended c.rest) (goesOn : c.current.isEnding = false)
    (inside : c.current.isSymbol "\x7d" = false) :
    ∃ span, span ≠ [] ∧ c.Over span c.skipCode ∧ (c.skipCode.current.isEnding = false → Token.Balanced span) := by
  rcases c with ⟨last, current, _ | ⟨t, ts⟩⟩
  · exact absurd rfl (ended.later_ne_nil goesOn)
  · have ended' : Ended (t :: ts) := ended.suffix (List.suffix_cons _ _) (List.cons_ne_nil _ _)
    obtain ⟨span, crossed, closed⟩ := afterCode_over current.position.line (if current.isSymbol "\x7b" then 1 else 0)
      current t ts ended'
    refine ⟨current :: span, List.cons_ne_nil _ _, ?_, fun ends => ?_⟩
    · exact (Over.next (c := ⟨last, current, t :: ts⟩) (List.cons_ne_nil _ _)).trans crossed
    · have counted : Token.countBlocks 0 current = _ := Token.countBlocks_inside fun _ => inside
      rw [inside, if_neg Bool.false_ne_true] at counted
      rw [Token.Balanced, List.foldlM_cons, counted]
      exact closed ends

end Cursor

namespace Action

variable {source : Source} {c : Cursor} {inner : Parse Expr} {block : Parse (List Action)}

/-- Raw code is the source text of its tokens. -/
theorem takes_parseCode (goesOn : c.current.isEnding = false) (inside : c.current.isSymbol "\x7d" = false) :
    Takes source parseCode c fun span d a =>
      span ≠ [] ∧ (d.current.isEnding = false → Statement source span a) := by
  rintro ended s a t rfl hr
  obtain ⟨span, nonempty, crossed, closed⟩ := Cursor.skipCode_over ended goesOn inside
  rw [parseCode, bind_run_ok (current_run source s), bind_run_ok (get_run source s),
    bind_run_ok (goTo_run _ source s), bind_run_ok (read_run source _), bind_run_ok (previous_run source _)] at hr
  dsimp only at hr
  have text := crossed.slice_eq nonempty source
  rw [text, bind_run] at hr
  have kept := check_cursor (Check.string (source.textOf span) "action code") source
    { s with cursor := s.cursor.skipCode }
  rcases hc : check _ source _ with ⟨e | ⟨⟩, u⟩
  · rw [hc] at hr
    cases hr
  · rw [hc] at hr kept
    cases hr
    rw [kept]
    exact ⟨span, crossed, nonempty, fun ends => .code nonempty (closed ends)⟩

/-! ## Reading statements -/

section

variable (hi : ∀ d, Takes source inner d fun span _ _ => Phrase span)
include hi

theorem takes_parseNavigation : Takes source (parseNavigation inner) c fun span _ _ => Phrase span := by
  refine .word fun kind d _ => .check _ (.current ?_)
  have plain : c.current.isBrace = false := Token.isBrace_of_kind (by rw [kind]; decide)
  split
  · refine (Expr.takes_parseArguments hi).bind fun span _ args _ phrase => .pure ?_
    rw [List.append_nil]
    exact .cons plain phrase.plain
  · exact .pure (.cons plain (List.forall_mem_nil _))

theorem takes_parseCall (function : String) :
    Takes source (parseCall inner function) c fun span _ a => Phrase span ∧ ∃ args, a = .call function args := by
  refine .check _ ((Expr.takes_parseArguments hi).bind fun span _ args _ phrase => .pure ?_)
  rw [List.append_nil]
  exact ⟨phrase, args, rfl⟩

/-- An assignment keeps the source text of the tokens after its sign. -/
theorem takes_parseUpdate (kind : c.current.kind = .word) :
    Takes source (parseUpdate inner) c fun span _ a => Statement source span a := by
  refine .advance (Token.isEnding_of_kind kind (by decide)) fun d _ => .check _ (.expectSymbol fun assigns e _ => ?_)
  refine .current ((hi e).bind fun span d' value crossed phrase => .read (.previous (.pure ?_)))
  rw [List.append_nil, crossed.slice_eq phrase.nonempty]
  exact .update kind assigns phrase value

theorem takes_parsePlain : Takes source (parsePlain inner) c fun span _ a => Statement source span a := by
  refine .current (.following ?_)
  split
  · next path =>
    split
    · exact takes_parseUpdate hi path.1
    · split
      · refine .skip (Token.isEnding_of_kind path.1 (by decide)) fun d _ => (takes_parseCall hi _).mono ?_
        rintro span _ _ ⟨phrase, args, rfl⟩
        exact .call (.cons (Token.isBrace_of_kind (by rw [path.1]; decide)) phrase.plain) _ args
      · exact .fail _
  · exact .fail _

end

section

variable (hb : ∀ d, Takes source block d fun span _ actions => Block source span actions)
include hb

theorem takes_parseLoop : Takes source (parseLoop block) c fun span _ a => Statement source span a := by
  refine .keyword fun first d _ => .word fun name d' _ => .check _ ?_
  refine .keyword fun second e _ => .word fun range e' _ => ?_
  have header : Phrase [c.current, d.current, d'.current, e.current] := by
    refine .cons (Token.isBrace_of_isWord first) ?_
    simp only [List.forall_mem_cons]
    exact ⟨Token.isBrace_of_kind (by rw [name]; decide), Token.isBrace_of_isWord second,
      Token.isBrace_of_kind (by rw [range]; decide), List.forall_mem_nil _⟩
  dsimp only
  split
  · refine (hb e').bind fun span _ body _ block => .check _ (.pure ?_)
    rw [List.append_nil]
    exact .loop header _ _ block
  · exact .stop (.failAt _ _)

variable (hi : ∀ d, Takes source inner d fun span _ _ => Phrase span)
include hi

theorem takes_parseBranchWith {chained : Parse Action}
    (hc : ∀ d, Takes source chained d fun span _ a => Statement source span a) :
    Takes source (parseBranchWith inner block chained) c fun span _ a => Statement source span a := by
  refine .keyword fun word d _ => (hi d).bind fun span e condition _ phrase =>
    (hb e).bind fun thenTokens d' thenActions _ thenBlock => .atWord ?_
  have joined {elseTokens : List Token} {elseActions : List Action}
      (elseBlock : Otherwise source elseTokens elseActions) :
      Statement source (c.current :: (span ++ (thenTokens ++ elseTokens)))
        (.branch condition thenActions elseActions) := by
    rw [← List.append_assoc]
    exact .branch word phrase condition thenBlock elseBlock
  split
  · next otherwise =>
    refine .skip (Token.isEnding_of_isWord otherwise) fun e' _ => .atWord ?_
    split
    · refine (hc e').bind fun elseTokens _ a _ statement => .pure (joined ?_)
      rw [List.append_nil]
      exact .chained otherwise statement
    · refine (hb e').bind fun elseTokens _ elseActions _ block => .pure (joined ?_)
      rw [List.append_nil]
      exact .block otherwise block
  · exact .pure (joined .none)

/-- A statement is raw code if it is nothing else. -/
theorem takes_parseStatementWith {branch : Parse Action}
    (hc : ∀ d, Takes source branch d fun span _ a => Statement source span a)
    (goesOn : c.current.isEnding = false) (inside : c.current.isSymbol "\x7d" = false) :
    Takes source (parseStatementWith inner block branch) c fun span d a =>
      span ≠ [] ∧ (d.current.isEnding = false → Statement source span a) := by
  -- every kind of statement starts with tokens that are no braces
  have structured : Takes source (parseStructured inner block branch) c fun span _ a => Statement source span a := by
    refine .current ?_
    split
    · next starts =>
      have plain : c.current.isBrace = false := by
        rcases (Bool.or_eq_true _ _).mp starts with arrow | word
        · exact Token.isBrace_of_isSymbol arrow (by decide)
        · exact Token.isBrace_of_isWord word
      refine .skip goesOn fun d _ => (takes_parseNavigation hi).bind fun span _ n _ phrase => .pure ?_
      rw [List.append_nil]
      exact .navigate (.cons plain phrase.plain) n
    · split
      · next word =>
        refine .skip goesOn fun d _ => .word fun kind e _ => (takes_parseCall hi _).mono ?_
        rintro span _ _ ⟨phrase, args, rfl⟩
        refine .call (.cons (Token.isBrace_of_isWord word) (List.forall_mem_cons.mpr ⟨?_, phrase.plain⟩)) _ args
        exact Token.isBrace_of_kind (by rw [kind]; decide)
      · split
        · exact hc c
        · split
          · exact takes_parseLoop hb
          · exact takes_parsePlain hi
  -- a statement that does not end its line is read again, as raw code
  refine .orElseFrom (structured.bind fun span d a _ statement => ?_) (takes_parseCode goesOn inside)
  refine .after (fun s _ t hr => by cases hr; rfl) fun finished => ?_
  split
  · refine .pure ?_
    rw [List.append_nil]
    exact ⟨statement.nonempty, fun _ => statement⟩
  · exact .fail _

end

/-! ## Reading blocks -/

/-- Statements up to the brace that closes their block. -/
theorem takes_braced {statement : Parse Action}
    (hs : ∀ d, d.current.isEnding = false → d.current.isSymbol "\x7d" = false →
      Takes source statement d fun span e a =>
        span ≠ [] ∧ (e.current.isEnding = false → Statement source span a)) :
    Takes source (braced statement) c fun span _ actions => Block source span actions := by
  refine .expectSymbol fun opens d _ => .bind (P := fun span e actions =>
    e.current.isEnding = false → Statements source span actions) ?_ ?_
  · refine .itemsUntil (fun span e actions _ earlier inside => ?_) fun _ => .nil
    rw [adding, beforeEnding, bind_assoc]
    refine .atEnding ?_
    split
    · exact .stop (.fail _)
    · next goesOn =>
      refine (hs e (eq_false_of_ne_true goesOn) inside).bind fun later d' a _ read => .pure fun ends => ?_
      obtain ⟨nonempty, statement⟩ := read
      rw [List.append_nil]
      exact .concat (earlier (eq_false_of_ne_true goesOn)) nonempty (statement ends)
  · intro span e actions _ statements
    refine .expectSymbol fun closes d' _ => .pure ?_
    exact .braces opens (statements (Token.isEnding_of_isSymbol closes)) closes

mutual

theorem takes_parseBlock (depth : Nat) (c : Cursor) :
    Takes source (parseBlock depth) c fun span _ actions => Block source span actions := by
  cases depth with
  | zero => exact .expectSymbol fun _ _ _ => .tooDeep
  | succ depth =>
    exact takes_braced fun d => takes_parseStatementWith (takes_parseBlock depth) (Expr.takes_parse depth)
      (takes_parseBranch depth)

theorem takes_parseBranch (depth : Nat) (c : Cursor) :
    Takes source (parseBranch depth) c fun span _ a => Statement source span a := by
  cases depth with
  | zero =>
    have block (d : Cursor) : Takes source (do Parse.expectSymbol "\x7b"; Parse.tooDeep) d
        fun span _ actions => Block source span actions := .expectSymbol fun _ _ _ => .tooDeep
    exact takes_parseBranchWith block (fun _ => .tooDeep) fun _ => .tooDeep
  | succ depth =>
    exact takes_parseBranchWith
      (fun _ => takes_braced fun d => takes_parseStatementWith (takes_parseBlock depth) (Expr.takes_parse depth)
        (takes_parseBranch depth))
      (Expr.takes_parse (depth + 1)) (takes_parseBranch depth)

end

/-- A block that is read, from any place in the tokens of a source text on, ends with the brace that closes it: the
braces in between are balanced. Its statements share out the tokens in between, one after the other and each one some
of them, and what is kept of the text of a statement is that of its tokens. -/
theorem block_of_parseBlock {source : Source} {tokens : List Token} (h : source.tokens = .ok tokens) {s t : ParseState}
    (place : s.cursor.rest <:+ tokens) {depth : Nat} {actions : List Action}
    (read : parseBlock depth source s = (.ok actions, t)) :
    ∃ inside closing, s.cursor.rest = s.cursor.current :: inside ++ closing :: t.cursor.rest ∧
      t.cursor.last = closing ∧ s.cursor.current.isSymbol "\x7b" = true ∧ closing.isSymbol "\x7d" = true ∧
      Token.Balanced inside ∧
      ∃ spans : List (List Token), spans.flatten = inside ∧ (∀ span ∈ spans, span ≠ []) ∧
        List.Forall₂ (Statement source) spans actions := by
  have ended : Ended s.cursor.rest :=
    (Ended.of_scan (Source.tokens_eq_ok.mp h)).suffix place (List.cons_ne_nil _ _)
  obtain ⟨span, crossed, block⟩ := takes_parseBlock depth s.cursor ended s actions t rfl read
  cases block with
  | @braces opening closing inside _ opens statements closes =>
    have rest := crossed.rest
    rw [List.append_assoc] at rest
    obtain ⟨rfl, -⟩ := List.cons.inj rest
    refine ⟨inside, closing, rest, ?_, opens, closes, statements.balanced, statements.exists_spans⟩
    rw [crossed.last, List.getLast?_concat]
    rfl

/-- A block of an assignment, raw code with a block of its own, and a conditional. -/
def nestedSource : Source :=
  .ofText "\x7b n = m % 2\n run \x7b x\n \x7d fast\n if n \x7b go()\n \x7d\n\x7d later" none

/-- The block ends before the last word of the text. -/
theorem block_of_parseBlock_nestedSource :
    ∃ tokens actions t, nestedSource.tokens = .ok tokens ∧
      parseBlock maxDepth nestedSource ⟨.ofTokens tokens, .ofLevel .strict, 0⟩ = (.ok actions, t) ∧
      actions.map text = ["n = m % 2", "run \x7b x\n \x7d", "fast", "if n"] ∧
      t.cursor.current.isWord "later" = true ∧
      ∃ inside closing, tokens = (Cursor.ofTokens tokens).current :: inside ++ closing :: t.cursor.rest ∧
        Token.Balanced inside ∧
        ∃ spans : List (List Token), spans.flatten = inside ∧ List.Forall₂ (Statement nestedSource) spans actions := by
  have told : nestedSource.tokens.toOption.any (fun tokens =>
      match runOn (parseBlock maxDepth) nestedSource tokens (.ofLevel .strict) with
      | (.ok actions, t) => actions.map text == ["n = m % 2", "run \x7b x\n \x7d", "fast", "if n"] &&
          t.cursor.current.isWord "later"
      | (.error _, _) => false) = true := by
    decide +kernel
  cases h : nestedSource.tokens with
  | error failure => rw [h] at told; cases told
  | ok tokens =>
    rw [h, Except.toOption, Option.any_some] at told
    rcases read : runOn (parseBlock maxDepth) nestedSource tokens (.ofLevel .strict) with ⟨failure | actions, t⟩
    · rw [read] at told
      cases told
    · rw [read] at told
      obtain ⟨texts, ending⟩ := (Bool.and_eq_true _ _).mp told
      have rest : (Cursor.ofTokens tokens).rest = tokens :=
        Cursor.rest_ofTokens (Ended.of_scan (Source.tokens_eq_ok.mp h)).ne_nil
      have place : (Cursor.ofTokens tokens).rest <:+ tokens := ⟨[], rest⟩
      obtain ⟨inside, closing, shared, -, -, -, balanced, spans, joined, -, statements⟩ :=
        block_of_parseBlock h (s := ⟨.ofTokens tokens, .ofLevel .strict, 0⟩) place read
      refine ⟨tokens, actions, t, rfl, read, eq_of_beq texts, ending, inside, closing, ?_, balanced, spans, joined,
        statements⟩
      rw [← shared]
      exact rest.symm

end Action

end Screenplay
