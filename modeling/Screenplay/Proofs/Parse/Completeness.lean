/-
How much of the grammar of expressions the parser reads. It looks for no operator after a negated operand, takes a
leading word `not` for a sign even where it is a name, takes the names of the truth values for no functions, and
refuses very long numbers. Every other expression of the grammar is read up to its end, and over each of these the
parser stumbles.
-/
import Screenplay.Proofs.Parse.Operands
import Screenplay.Proofs.Parse.Spans

namespace Screenplay

namespace Expr

open Parse

variable {policy : Policy} {source : Source} {s u : ParseState} {e : Expr} {next : Token} {later : List Token}

/-! ## Expressions -/

section

variable {operand : Parse Expr} {liberties : Set Liberty} {Read Meant : List Token → Prop} {tokens : List Token}

/-- An operand that does not start with `not` starts with no sign of a negation. -/
theorem unsigned (begins : Begins tokens) (positive : Positive tokens) (left : Left policy (tokens ++ later) s) :
    s.cursor.current.isSymbol "!" = false ∧ s.cursor.current.isWord "not" = false := by
  obtain ⟨kind, -⟩ := begins
  rw [left.current]
  refine ⟨Token.isSymbol_of_kind ?_, positive _ rfl⟩
  rcases kind with kind | kind <;> rw [kind] <;> decide

/-- What comes after an operand that is read and that no sign stands before. -/
theorem parseWith_operand (begins : Begins tokens) (positive : Positive tokens)
    (left : Left policy (tokens ++ later) s) (read : operand source s = (.ok e, u)) :
    (u.cursor.current.operator? = none → parseWith operand source s = (.ok e, u)) ∧
      ∀ op, u.cursor.current.operator? = some op → parseWith operand source s =
        (do return .binary op e (← operand) : Parse Expr) source { u with cursor := u.cursor.next } := by
  obtain ⟨mark, word⟩ := unsigned begins positive left
  rw [parseWith_positive mark word, bind_run_ok read, bind_run_ok (current_run source u)]
  constructor
  · intro none
    rw [none]
    rfl
  · intro op operator
    rw [operator]
    dsimp only
    rw [bind_run_ok (t := { u with cursor := u.cursor.next }) rfl]

/-! ### What is read -/

/-- If the operands are read, the expressions without liberties are. -/
theorem consumes_sentence (begins : ∀ tokens, Read tokens → Begins tokens)
    (ho : ∀ tokens, Read tokens → Consumes policy (·.isSymbol "(" = false) operand tokens)
    (h : Sentence ∅ Read tokens) : Consumes policy Token.Closes (parseWith operand) tokens := by
  intro source s next later left closes
  cases h with
  | plain h start =>
    obtain ⟨e, u, read, reached⟩ := ho _ h source s next later left closes.alone
    have positive := start.resolve_right (Set.notMem_empty _)
    refine ⟨e, u, (parseWith_operand (begins _ h) positive left read).1 ?_, reached⟩
    rw [reached.current, closes.operator?]
  | binary hl start sign hr =>
    rw [List.append_assoc, List.cons_append] at left
    obtain ⟨e, u, read, reached⟩ := ho _ hl source s _ _ left sign.alone
    have positive := start.resolve_right (Set.notMem_empty _)
    obtain ⟨op, operator⟩ := sign.exists_operator?
    have after := reached.next (by simp)
    obtain ⟨e', v, read', reached'⟩ := ho _ hr source _ next later after closes.alone
    rw [(parseWith_operand (begins _ hl) positive left read).2 op (by rwa [reached.current]), bind_run_ok read']
    exact ⟨_, v, rfl, reached'⟩
  | negated negates h =>
    have after := left.next (by simp)
    obtain ⟨e, u, read, reached⟩ := ho _ h source _ next later after closes.alone
    rw [parseWith_negation (by rw [left.current]; exact negates.sign), bind_run_ok read]
    exact ⟨_, u, rfl, reached⟩
  | negatedBinary liberty _ _ _ _ => exact absurd liberty (Set.notMem_empty _)

/-! ### What is stumbled over -/

/-- An operand that is stumbled over and that comes first. -/
theorem stumbles_first (begins : Begins tokens) (positive : Positive tokens)
    (stumbles : Stumbles policy (·.isSymbol "(" = false) operand tokens)
    (left : Left policy (tokens ++ next :: later) s) (alone : next.isSymbol "(" = false)
    (read : parseWith operand source s = (.ok e, u)) : ¬ u.cursor.current.Closes := by
  rcases first : operand source s with ⟨failure | e', v⟩
  · obtain ⟨mark, word⟩ := unsigned begins positive left
    rw [parseWith_positive mark word, bind_run_error (by rw [first])] at read
    cases read
  · have stray : ¬ v.cursor.current.isSymbol "(" = false := stumbles source s next later left alone e' v first
    have none : v.cursor.current.operator? = Option.none :=
      Token.operator?_of_isSymbol (eq_true_of_ne_false stray) rfl
    rw [(parseWith_operand begins positive left first).1 none] at read
    cases read
    exact fun closes => stray closes.alone

/-- An operand that is stumbled over and that comes last. -/
theorem stumbles_last {f : Expr → Expr} (stumbles : Stumbles policy (·.isSymbol "(" = false) operand tokens)
    (left : Left policy (tokens ++ next :: later) s) (alone : next.isSymbol "(" = false)
    (read : (do return f (← operand) : Parse Expr) source s = (.ok e, u)) : ¬ u.cursor.current.Closes := by
  rcases last : operand source s with ⟨failure | e', v⟩
  · rw [bind_run_error (by rw [last])] at read
    cases read
  · have stray := stumbles source s next later left alone e' v last
    rw [bind_run_ok last] at read
    cases read
    exact fun closes => stray closes.alone

/-- A name `not` at the start is taken for a sign, and no operand follows it. -/
theorem parseWith_leadingNot (begins : Begins tokens) (negative : ¬ Positive tokens)
    (stuck : ∀ source s, Halts s.cursor.current → ∃ failure, (operand source s).1 = .error failure)
    (left : Left policy (tokens ++ next :: later) s) (halts : Halts next) :
    ∃ failure, (parseWith operand source s).1 = .error failure := by
  obtain @⟨t, rest, kind, name⟩ := begins
  have word : t.isWord "not" = true := by
    by_contra other
    exact negative fun | _, rfl => eq_false_of_ne_true other
  have after := left.next (by simp)
  have halted : Halts s.cursor.next.current := by
    rcases name word with rfl | ⟨opening, others, rfl, opens⟩
    · rwa [after.current]
    · rw [after.current]
      exact .parenthesis opens
  obtain ⟨failure, failed⟩ := stuck source { s with cursor := s.cursor.next } halted
  rw [parseWith_negation (by rw [left.current, word, Bool.or_true]), bind_run_error failed]
  exact ⟨failure, rfl⟩

/-- A faithful parser of operands makes the parser of expressions faithful. -/
theorem faithful_parseWith (begins : ∀ tokens, Read tokens ∨ Meant tokens → Begins tokens)
    (stuck : ∀ source s, Halts s.cursor.current → ∃ failure, (operand source s).1 = .error failure)
    (ho : Faithful policy (·.isSymbol "(" = false) operand Read Meant) :
    Faithful policy Token.Closes (parseWith operand) (Sentence ∅ Read) (Sentence liberties Meant) := by
  refine ⟨fun tokens => consumes_sentence (fun _ h => begins _ (.inl h)) ho.consumes, fun tokens h => ?_⟩
  cases h with
  | plain h start =>
    by_cases positive : Positive tokens
    · refine (ho.stumbles _ h).imp (.plain · (.inl positive)) fun stumbles => ?_
      intro source s next later left closes e u read
      exact stumbles_first (begins _ (.inr h)) positive stumbles left closes.alone read
    · refine .inr (.of_failing fun source s next later left closes => ?_)
      exact parseWith_leadingNot (begins _ (.inr h)) positive stuck left (.closes closes)
  | @binary first last op hl start sign hr =>
    by_cases positive : Positive first
    · rcases ho.stumbles _ hl with hl' | stumbles
      · refine (ho.stumbles _ hr).imp (.binary hl' (.inl positive) sign) fun stumbles => ?_
        intro source s next later left closes e u read
        rw [List.append_assoc, List.cons_append] at left
        obtain ⟨e', v, read', reached⟩ := ho.consumes _ hl' source s _ _ left sign.alone
        obtain ⟨sign, operator⟩ := sign.exists_operator?
        rw [(parseWith_operand (begins _ (.inl hl')) positive left read').2 sign (by rwa [reached.current])] at read
        exact stumbles_last stumbles (reached.next (by simp)) closes.alone read
      · refine .inr fun source s next later left closes e u read => ?_
        rw [List.append_assoc, List.cons_append] at left
        exact stumbles_first (begins _ (.inr hl)) positive stumbles left sign.alone read
    · refine .inr (.of_failing fun source s next later left _ => ?_)
      rw [List.append_assoc, List.cons_append] at left
      exact parseWith_leadingNot (begins _ (.inr hl)) positive stuck left (.operator sign)
  | negated negates h =>
    refine (ho.stumbles _ h).imp (.negated negates) fun stumbles source s next later left closes e u read => ?_
    rw [parseWith_negation (by rw [left.current]; exact negates.sign)] at read
    exact stumbles_last stumbles (left.next (by simp)) closes.alone read
  | negatedBinary _ negates hl sign hr =>
    -- whatever becomes of the first operand, nothing looks for the operator
    refine .inr fun source s next later left closes e u read => ?_
    rw [List.cons_append, List.append_assoc, List.cons_append] at left
    rw [parseWith_negation (by rw [left.current]; exact negates.sign)] at read
    have after := left.next (by simp)
    rcases ho.stumbles _ hl with hl' | stumbles
    · obtain ⟨e', v, read', reached⟩ := ho.consumes _ hl' source _ _ _ after sign.alone
      rw [bind_run_ok read'] at read
      cases read
      rw [reached.current]
      exact sign.not_closes
    · exact stumbles_last stumbles after sign.alone read

end

/-! ## All levels of nesting -/

section

variable {liberties : Set Liberty} {tokens : List Token}

theorem parseOperand_halts (depth : Nat) (source : Source) (s : ParseState) (h : Halts s.cursor.current) :
    ∃ failure, (parseOperand depth source s).1 = .error failure := by
  cases depth with
  | zero => exact ⟨_, rfl⟩
  | succ depth =>
    rw [parseOperand_succ]
    exact parseOperandWith_halts h

variable (liberties policy)

mutual

theorem faithful_parseOperand (depth : Nat) :
    Faithful policy (·.isSymbol "(" = false) (parseOperand depth) (Operands ∅ policy depth)
      (Operands liberties policy depth) := by
  cases depth with
  | zero => exact ⟨fun _ h => h.elim, fun _ h => h.elim⟩
  | succ depth =>
    rw [parseOperand_succ]
    exact faithful_parseOperandWith (fun _ h => h.elim starts_sentences starts_sentences) (faithful_parse depth)

theorem faithful_parse (depth : Nat) :
    Faithful policy Token.Closes (parse depth) (Sentences ∅ policy depth) (Sentences liberties policy depth) := by
  cases depth with
  | zero => exact ⟨fun _ h => h.elim, fun _ h => h.elim⟩
  | succ depth =>
    exact faithful_parseWith (fun _ h => h.elim begins_operands begins_operands) (parseOperand_halts depth)
      (faithful_parseOperand depth)

end

variable {policy} {depth : Nat} {ending : Token}

/-- An expression of the grammar that the end of the text follows is read up to this end exactly if none of the
liberties of the grammar are taken in it. -/
theorem read_to_end_iff (h : Sentences Set.univ policy depth tokens) (ends : ending.isEnding = true) (source : Source)
    (hits : List Hit) :
    (∃ e state, (parse depth).runOn source (tokens ++ [ending]) ⟨policy, hits⟩ = (.ok e, state) ∧
      state.cursor.rest = [ending]) ↔ Sentences ∅ policy depth tokens := by
  have faithful := faithful_parse policy Set.univ depth
  let start : ParseState := ⟨.ofTokens (tokens ++ [ending]), ⟨policy, hits⟩, 0⟩
  have left : Left policy (tokens ++ [ending]) start := ⟨rfl, Cursor.rest_ofTokens (by simp)⟩
  constructor
  · rintro ⟨e, state, read, rest⟩
    refine (faithful.stumbles tokens h).resolve_right fun stumbles => ?_
    have stray := stumbles source start ending [] left (.ending ends) e state read
    rw [(List.cons.inj rest).1] at stray
    exact stray (.ending ends)
  · intro strict
    obtain ⟨e, state, read, reached⟩ := faithful.consumes tokens strict source start ending [] left (.ending ends)
    exact ⟨e, state, read, reached.rest⟩

end

/-! ### Two expressions -/

/-- A comparison without liberties. -/
def plainComparison : String := "f(!a) == b"

/-- A comparison whose first operand is negated. -/
def negatedComparison : String := "!a == b"

/-- A name is an operand where there is a level of nesting for it. -/
theorem operands_name {liberties : Set Liberty} {depth : Nat} {t : Token} (kind : t.kind = .word)
    (path : isPath t.value.toList = true) (clean : (Policy.ofLevel .strict).findBlocked t.value = none) :
    Operands liberties (.ofLevel .strict) (depth + 1) [t] := by
  refine .path kind path ?_
  rw [Policy.enforced_eq_self rfl, Check.passes_text]
  exact clean

/-- The tokens of the first comparison are an expression whatever the liberties. -/
theorem sentences_plainComparison : ∃ tokens ending,
    (Source.ofText plainComparison none).tokens = .ok (tokens ++ [ending]) ∧ ending.isEnding = true ∧
      ∀ liberties, Sentences liberties (.ofLevel .strict) maxDepth tokens := by
  let f : Token := ⟨.word, "f", "f", 0, 1, ⟨1, 1⟩⟩
  let opening : Token := ⟨.symbol, "(", "(", 1, 2, ⟨1, 2⟩⟩
  let mark : Token := ⟨.symbol, "!", "!", 2, 3, ⟨1, 3⟩⟩
  let a : Token := ⟨.word, "a", "a", 3, 4, ⟨1, 4⟩⟩
  let closing : Token := ⟨.symbol, ")", ")", 4, 5, ⟨1, 5⟩⟩
  let equal : Token := ⟨.symbol, "==", "==", 6, 8, ⟨1, 7⟩⟩
  let b : Token := ⟨.word, "b", "b", 9, 10, ⟨1, 10⟩⟩
  refine ⟨[f, opening, mark, a, closing, equal, b], .endingAt 10 ⟨1, 11⟩, by decide +kernel, rfl, fun liberties => ?_⟩
  have arg : Sentences liberties (.ofLevel .strict) 48 [mark, a] :=
    .negated (.mark rfl) (operands_name rfl (by decide) (by decide))
  have call : Operands liberties (.ofLevel .strict) 49 [f, opening, mark, a, closing] := by
    refine .call rfl (by decide) ?_ (.inl (by decide)) (.intro rfl (.one arg) (by decide) rfl)
    rw [Policy.enforced_eq_self rfl, Check.passes_text]
    decide
  exact .binary call (.inl (by rintro _ ⟨⟩; rfl)) (.comparison rfl (by decide))
    (operands_name rfl (by decide) (by decide))

/-- So the first comparison is read up to its end. -/
theorem read_to_end_plainComparison : ∃ tokens ending,
    (Source.ofText plainComparison none).tokens = .ok (tokens ++ [ending]) ∧ ending.isEnding = true ∧
      ∃ e state, (parse maxDepth).runOn (.ofText plainComparison none) (tokens ++ [ending]) (.ofLevel .strict) =
        (.ok e, state) ∧ state.cursor.rest = [ending] := by
  obtain ⟨tokens, ending, scanned, ends, sentence⟩ := sentences_plainComparison
  refine ⟨tokens, ending, scanned, ends, ?_⟩
  exact (read_to_end_iff (sentence Set.univ) ends (.ofText plainComparison none) []).mpr (sentence ∅)

/-- The tokens of the second comparison are an expression of the grammar, too, but it is not read up to its end. -/
theorem not_read_to_end_negatedComparison : ∃ tokens ending,
    (Source.ofText negatedComparison none).tokens = .ok (tokens ++ [ending]) ∧ ending.isEnding = true ∧
      Sentences Set.univ (.ofLevel .strict) maxDepth tokens ∧
      ¬ ∃ e state, (parse maxDepth).runOn (.ofText negatedComparison none) (tokens ++ [ending]) (.ofLevel .strict) =
        (.ok e, state) ∧ state.cursor.rest = [ending] := by
  let mark : Token := ⟨.symbol, "!", "!", 0, 1, ⟨1, 1⟩⟩
  let a : Token := ⟨.word, "a", "a", 1, 2, ⟨1, 2⟩⟩
  let equal : Token := ⟨.symbol, "==", "==", 3, 5, ⟨1, 4⟩⟩
  let b : Token := ⟨.word, "b", "b", 6, 7, ⟨1, 7⟩⟩
  let ending : Token := .endingAt 7 ⟨1, 8⟩
  refine ⟨[mark, a, equal, b], ending, by decide +kernel, rfl, ?_, ?_⟩
  · have name (t : Token) (kind : t.kind = .word) (path : isPath t.value.toList = true)
        (clean : (Policy.ofLevel .strict).findBlocked t.value = none) :
        Operands Set.univ (.ofLevel .strict) 49 [t] := operands_name kind path clean
    exact .negatedBinary (Set.mem_univ _) (.mark rfl) (name a rfl (by decide) (by decide))
      (.comparison rfl (by decide)) (name b rfl (by decide) (by decide))
  · rintro ⟨e, state, read, rest⟩
    have left : ((parse maxDepth).runOn (.ofText negatedComparison none) [mark, a, equal, b, ending]
        (.ofLevel .strict)).2.cursor.rest = [equal, b, ending] := by
      decide +kernel
    rw [show [mark, a, equal, b, ending] = [mark, a, equal, b] ++ [ending] from rfl, read, rest] at left
    exact absurd (congrArg List.length left) (by simp)

end Expr

end Screenplay
