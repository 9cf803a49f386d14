/-
Operands and calls as the parser reads them. A parser is faithful to a grammar within a wider one if it reads what the
one has and stumbles over whatever else is in the other: it fails, or stops before a token that cannot stand there. A
parser of expressions that is faithful makes the parser of operands faithful, too.
-/
import Screenplay.Proofs.Parse.Progress
import Screenplay.Proofs.Parse.Sentences

namespace Screenplay

/-! ## What a parser makes of some tokens -/

namespace Parse

variable {α β : Type} {policy : Policy} {before : Token → Prop} {source : Source} {s : ParseState} {t : Token}
  {tokens later : List Token}

/-- A parser that has a policy and some tokens left. -/
structure Left (policy : Policy) (tokens : List Token) (s : ParseState) : Prop where
  policy : s.guard.policy = policy
  rest : s.cursor.rest = tokens

/-- A parser that reads some tokens where another token follows them before which they may stand. -/
def Consumes (policy : Policy) (before : Token → Prop) (m : Parse α) (tokens : List Token) : Prop :=
  ∀ source s next later, Left policy (tokens ++ next :: later) s → before next →
    ∃ a t, m source s = (.ok a, t) ∧ Left policy (next :: later) t

/-- A parser that fails there, or stops before a token that they may not stand before. -/
def Stumbles (policy : Policy) (before : Token → Prop) (m : Parse α) (tokens : List Token) : Prop :=
  ∀ source s next later, Left policy (tokens ++ next :: later) s → before next →
    ∀ a t, m source s = (.ok a, t) → ¬ before t.cursor.current

/-- A parser that reads what it should, and stumbles over whatever else it is meant to read. -/
structure Faithful (policy : Policy) (before : Token → Prop) (m : Parse α) (Read Meant : List Token → Prop) : Prop where
  consumes : ∀ tokens, Read tokens → Consumes policy before m tokens
  stumbles : ∀ tokens, Meant tokens → Read tokens ∨ Stumbles policy before m tokens

namespace Left

theorem current (h : Left policy (t :: later) s) : s.cursor.current = t :=
  (List.cons.inj h.rest).1

/-- The state after the next token, as long as this is not the last one. -/
theorem next (h : Left policy (t :: later) s) (more : later ≠ []) :
    Left policy later { s with cursor := s.cursor.next } := by
  obtain ⟨-, rest⟩ := List.cons.inj h.rest
  refine ⟨h.policy, ?_⟩
  rw [← rest] at more ⊢
  exact Cursor.next_rest more

/-- There are more tokens left than those before a token. -/
theorem length_lt {next : Token} (h : Left policy (tokens ++ next :: later) s) :
    tokens.length < s.cursor.later.length + 1 := by
  have left := congrArg List.length h.rest
  rw [Cursor.rest, List.length_cons, List.length_append, List.length_cons] at left
  omega

/-- The state after some checks. -/
theorem checked {guard : Guard} (h : Left policy tokens s) (same : guard.policy = s.guard.policy) :
    Left policy tokens { s with guard } :=
  ⟨same.trans h.policy, h.rest⟩

end Left

/-- Checks that pass leave nothing but a guard of the same policy. -/
theorem check_passes {checks : List Check} (h : ∀ c ∈ checks, c.Passes s.guard.policy.enforced) (source : Source) :
    ∃ guard, guard.policy = s.guard.policy ∧ check checks source s = (.ok (), { s with guard }) :=
  ⟨_, Guard.check_policy _ _, check_run_ok.mpr ⟨Guard.check_eq_ok.mpr h, rfl⟩⟩

/-- What always fails stumbles. -/
theorem Stumbles.of_failing {m : Parse α}
    (h : ∀ source s next later, Left policy (tokens ++ next :: later) s → before next →
      ∃ failure, (m source s).1 = .error failure) : Stumbles policy before m tokens := by
  intro source s next later left stands a t read
  obtain ⟨failure, failed⟩ := h source s next later left stands
  rw [read] at failed
  cases failed

end Parse

/-! ## Arguments of calls -/

namespace Expr

open Parse

variable {policy : Policy} {inner : Parse Expr} {source : Source} {s u : ParseState} {e : Expr} {args : List Expr}
  {next : Token} {later : List Token}

/-- One round of the loop over the arguments of a call. -/
def argumentRound (inner : Parse Expr) (args : List Expr) : Parse (Round (List Expr)) := do
  if ← atSymbol ")" then return .done args
  let args ← addArgument inner args
  if ← skipSymbol "," then return .again args else return .done args

theorem expectSymbol_run {symbol : String} (h : s.cursor.current.isSymbol symbol = true) :
    expectSymbol symbol source s = (.ok (), { s with cursor := s.cursor.next }) := by
  rw [expectSymbol, bind_run_ok (atSymbol_run symbol source s), h]
  rfl

theorem expectSymbol_run_error {symbol : String} (h : ¬ s.cursor.current.isSymbol symbol = true) :
    ∃ failure, (expectSymbol symbol source s).1 = .error failure := by
  rw [expectSymbol, bind_run_ok (atSymbol_run symbol source s), if_neg h]
  exact ⟨_, rfl⟩

theorem itemsBetweenCommas_arguments (inner : Parse Expr) (args : List Expr) :
    itemsBetweenCommas ")" (addArgument inner) args = rounds (argumentRound inner) args :=
  rfl

theorem argumentRound_done (closes : s.cursor.current.isSymbol ")" = true) :
    argumentRound inner args source s = (.ok (.done args), s) := by
  rw [argumentRound, bind_run_ok (atSymbol_run ")" source s), closes]
  rfl

/-- An argument that is read is added as long as there are not too many. -/
theorem addArgument_run (read : inner source s = (.ok e, u)) (few : args.length < maxArguments) :
    ∃ guard, guard.policy = u.guard.policy ∧
      addArgument inner args source s = (.ok (args ++ [e]), { u with guard }) := by
  obtain ⟨guard, same, passed⟩ : ∃ guard, guard.policy = u.guard.policy ∧
      check [.limit "function call arguments" (args ++ [e]).length maxArguments] source u =
        (.ok (), { u with guard }) := by
    apply check_passes
    rw [List.forall_mem_singleton, Check.passes_limit, List.length_append, List.length_singleton]
    exact Int.ofNat_le.mpr few
  refine ⟨guard, same, ?_⟩
  have added : adding inner args source s = (.ok (args ++ [e]), u) := by
    rw [adding, bind_run_ok read]
    rfl
  rw [addArgument, bind_run_ok added, bind_run_ok passed]
  rfl

theorem argumentRound_again (unclosed : s.cursor.current.isSymbol ")" = false) (read : inner source s = (.ok e, u))
    (few : args.length < maxArguments) (left : Left policy (next :: later) u) (comma : next.isSymbol "," = true)
    (more : later ≠ []) :
    ∃ t, argumentRound inner args source s = (.ok (.again (args ++ [e])), t) ∧ Left policy later t := by
  obtain ⟨guard, same, added⟩ := addArgument_run read few
  have reached := left.checked same
  rw [argumentRound, bind_run_ok (atSymbol_run ")" source s), unclosed, if_neg Bool.false_ne_true, bind_run_ok added,
    skipSymbol, bind_assoc, bind_run_ok (atSymbol_run "," source _), reached.current, comma, if_pos rfl, bind_assoc]
  exact ⟨_, rfl, reached.next more⟩

theorem argumentRound_last (unclosed : s.cursor.current.isSymbol ")" = false) (read : inner source s = (.ok e, u))
    (few : args.length < maxArguments) (left : Left policy (next :: later) u) (alone : next.isSymbol "," = false) :
    ∃ t, argumentRound inner args source s = (.ok (.done (args ++ [e])), t) ∧ Left policy (next :: later) t := by
  obtain ⟨guard, same, added⟩ := addArgument_run read few
  have reached := left.checked same
  rw [argumentRound, bind_run_ok (atSymbol_run ")" source s), unclosed, if_neg Bool.false_ne_true, bind_run_ok added,
    skipSymbol, bind_assoc, bind_run_ok (atSymbol_run "," source _), reached.current, alone]
  exact ⟨_, rfl, reached⟩

section

variable {Read Meant : List Token → Prop} {count : Nat} {tokens : List Token}

/-- An argument that is read and a comma take one round. -/
theorem exists_roundsUpTo_more {comma : Token} (starts : Starts tokens)
    (reads : Consumes policy Token.Closes inner tokens) (few : args.length < maxArguments)
    (left : Left policy (tokens ++ comma :: later) s) (separates : comma.isSymbol "," = true) (more : later ≠ [])
    (source : Source) :
    ∃ e t, Left policy later t ∧ ∀ n, roundsUpTo (argumentRound inner) (n + 1) args source s =
      roundsUpTo (argumentRound inner) n (args ++ [e]) source t := by
  obtain ⟨first, others, rfl, unclosed⟩ := starts
  obtain ⟨e, u, read, reached⟩ := reads source s comma later left (.comma separates)
  obtain ⟨t, round, reached'⟩ := argumentRound_again (by rwa [left.current]) read few reached separates more
  refine ⟨e, t, reached', fun n => ?_⟩
  rw [roundsUpTo, bind_run_ok round]

/-- The rounds of the loop read arguments whose number stays below the ceiling. -/
theorem consumes_rounds (starts : ∀ tokens, Read tokens → Starts tokens)
    (hr : ∀ tokens, Read tokens → Consumes policy Token.Closes inner tokens)
    (h : Arguments Read count tokens) : ∀ n args, args.length + count ≤ maxArguments → tokens.length < n →
      Consumes policy (·.isSymbol ")" = true) (roundsUpTo (argumentRound inner) n args) tokens := by
  induction h with
  | none =>
    intro n args few enough source s next later left closes
    obtain ⟨n, rfl⟩ := Nat.exists_eq_add_one_of_ne_zero (Nat.ne_zero_of_lt enough)
    rw [roundsUpTo, bind_run_ok (argumentRound_done (by rwa [left.current]))]
    exact ⟨args, s, rfl, left⟩
  | @one tokens arg =>
    intro n args few enough source s next later left closes
    obtain ⟨n, rfl⟩ := Nat.exists_eq_add_one_of_ne_zero (Nat.ne_zero_of_lt enough)
    obtain ⟨t, others, rfl, unclosed⟩ := starts _ arg
    obtain ⟨e, u, read, reached⟩ := hr _ arg source s next later left (.parenthesis closes)
    -- no comma follows the argument, so its round is the last
    have alone : next.isSymbol "," = false := Token.isSymbol_of_ne closes (by decide)
    obtain ⟨t', round, reached'⟩ := argumentRound_last (by rwa [left.current]) read few reached alone
    rw [roundsUpTo, bind_run_ok round]
    exact ⟨_, t', rfl, reached'⟩
  | @more tokens rest comma count arg separates args ih =>
    intro n done few enough source s next later left closes
    obtain ⟨n, rfl⟩ := Nat.exists_eq_add_one_of_ne_zero (Nat.ne_zero_of_lt enough)
    rw [List.append_assoc, List.cons_append] at left
    -- this is one argument more, and those to come still count
    have room : done.length < maxArguments := by omega
    obtain ⟨e, t, reached, round⟩ :=
      exists_roundsUpTo_more (starts _ arg) (hr _ arg) room left separates (by simp) source
    rw [round]
    refine ih n (done ++ [e]) ?_ ?_ source t next later reached closes
    · rw [List.length_append, List.length_singleton]
      omega
    · simp only [List.length_append, List.length_cons] at enough
      omega

/-- Where an argument is not read, the loop ends with it. -/
theorem stumbles_rounds (starts : Starts tokens) (h : Stumbles policy Token.Closes inner tokens)
    (few : args.length < maxArguments) (left : Left policy (tokens ++ next :: later) s) (closes : next.Closes) {n : Nat}
    {all : List Expr} (loop : roundsUpTo (argumentRound inner) n args source s = (.ok all, u)) :
    ¬ u.cursor.current.isSymbol ")" = true := by
  obtain ⟨t, others, rfl, other⟩ := starts
  have unclosed : s.cursor.current.isSymbol ")" = false := by rwa [left.current]
  cases n with
  | zero => cases loop
  | succ n =>
    rw [roundsUpTo] at loop
    rcases read : inner source s with ⟨failure | e, v⟩
    · have failed : (argumentRound inner args source s).1 = .error failure := by
        have added : (addArgument inner args source s).1 = .error failure := by
          rw [addArgument, adding, bind_assoc, bind_run_error (by rw [read])]
        rw [argumentRound, bind_run_ok (atSymbol_run ")" source s), unclosed, if_neg Bool.false_ne_true,
          bind_run_error added]
      rw [bind_run_error failed] at loop
      cases loop
    · have stray := h source s next later left closes e v read
      have alone : v.cursor.current.isSymbol "," = false := eq_false_of_ne_true fun comma => stray (.comma comma)
      have left' : Left v.guard.policy (v.cursor.current :: v.cursor.later) v := ⟨rfl, rfl⟩
      obtain ⟨w, round, reached⟩ := argumentRound_last unclosed read few left' alone
      rw [bind_run_ok round] at loop
      cases loop
      rw [reached.current]
      exact fun closing => stray (.parenthesis closing)

/-- Unless all arguments are read, the loop stumbles over the first one that is not. -/
theorem faithful_rounds (starts : ∀ tokens, Meant tokens → Starts tokens)
    (hi : Faithful policy Token.Closes inner Read Meant) (h : Arguments Meant count tokens) :
    Arguments Read count tokens ∨ ∀ n args, args.length + count ≤ maxArguments →
      Stumbles policy (·.isSymbol ")" = true) (roundsUpTo (argumentRound inner) n args) tokens := by
  induction h with
  | none => exact .inl .none
  | @one tokens arg =>
    refine (hi.stumbles tokens arg).imp .one fun stumbles n args few source s next later left closes all u loop => ?_
    exact stumbles_rounds (starts tokens arg) stumbles few left (.parenthesis closes) loop
  | @more tokens rest comma count arg separates args ih =>
    rcases hi.stumbles tokens arg with read | stumbles
    · -- the first argument is read, so all depends on the others
      refine ih.imp (.more read separates) fun others n done few source s next later left closes all u loop => ?_
      rw [List.append_assoc, List.cons_append] at left
      have room : done.length < maxArguments := by omega
      obtain ⟨e, t, reached, round⟩ :=
        exists_roundsUpTo_more (starts tokens arg) (hi.consumes _ read) room left separates (by simp) source
      cases n with
      | zero => cases loop
      | succ n =>
        rw [round] at loop
        refine others n (done ++ [e]) ?_ source t next later reached closes all u loop
        rw [List.length_append, List.length_singleton]
        omega
    · refine .inr fun n done few source s next later left closes all u loop => ?_
      rw [List.append_assoc, List.cons_append] at left
      exact stumbles_rounds (starts tokens arg) stumbles (by omega) left (.comma separates) loop

/-- Behind its opening parenthesis, a list of arguments is a loop and a closing one. -/
theorem parseArguments_run (opens : s.cursor.current.isSymbol "(" = true) :
    parseArguments inner source s =
      (do
        let args ← roundsUpTo (argumentRound inner) (s.cursor.next.later.length + 1) []
        expectSymbol ")"
        return args : Parse (List Expr)) source { s with cursor := s.cursor.next } := by
  rw [parseArguments, bind_run_ok (expectSymbol_run opens), itemsBetweenCommas_arguments, rounds, bind_assoc,
    bind_run_ok (get_run source _)]

/-- Whatever follows the arguments of a call, they are read, or else reading them fails. -/
theorem faithful_parseArguments (starts : ∀ tokens, Read tokens ∨ Meant tokens → Starts tokens)
    (hi : Faithful policy Token.Closes inner Read Meant) :
    Faithful policy (fun _ => True) (parseArguments inner) (Parenthesized Read) (Parenthesized Meant) := by
  have few' {count : Nat} (few : count ≤ maxArguments) : ([] : List Expr).length + count ≤ maxArguments := by
    rwa [List.length_nil, Nat.zero_add]
  constructor
  · rintro _ ⟨opens, args, few, closes⟩ source s next later left -
    rw [List.cons_append, List.append_assoc, List.singleton_append] at left
    have inside := left.next (by simp)
    obtain ⟨e, t, loop, reached⟩ := consumes_rounds (fun _ h => starts _ (.inl h)) hi.consumes args _ [] (few' few)
      inside.length_lt source _ _ _ inside closes
    rw [parseArguments_run (by rwa [left.current]), bind_run_ok loop,
      bind_run_ok (expectSymbol_run (by rwa [reached.current]))]
    exact ⟨_, _, rfl, reached.next (by simp)⟩
  · rintro _ ⟨opens, args, few, closes⟩
    refine (faithful_rounds (fun _ h => starts _ (.inr h)) hi args).imp (⟨opens, ·, few, closes⟩) fun stumbles => ?_
    refine .of_failing fun source s next later left _ => ?_
    rw [List.cons_append, List.append_assoc, List.singleton_append] at left
    have inside := left.next (by simp)
    rw [parseArguments_run (by rwa [left.current])]
    rcases loop : roundsUpTo (argumentRound inner) _ [] source { s with cursor := s.cursor.next } with ⟨e | all, t⟩
    · rw [bind_run_error (by rw [loop])]
      exact ⟨e, rfl⟩
    · have stray := stumbles _ [] (few' few) source _ _ _ inside closes all t loop
      obtain ⟨e, failed⟩ := expectSymbol_run_error stray
      rw [bind_run_ok loop, bind_run_error failed]
      exact ⟨e, rfl⟩

end

/-! ## Operands -/

section

variable {liberties : Set Liberty} {t word : Token} {Read Meant : List Token → Prop}
  {tokens : List Token}

/-- What is a number, or would be if it were shorter, is no truth value. -/
theorem not_truth_of_read? (h : Number.read? word.value.toList ≠ .ok none) :
    ¬ (word.value = "true" ∨ word.value = "false") := by
  rintro (value | value) <;> rw [value] at h <;> exact h (Number.read?_of_isNameStart (by decide) _).1

theorem parseWord_number {number : Number} (h : Number.read? word.value.toList = .ok (some number)) :
    parseWord inner word source s = (.ok (.literal (.ofNumber number)), { s with cursor := s.cursor.next }) := by
  have read : number? word source { s with cursor := s.cursor.next } =
      (.ok (some number), { s with cursor := s.cursor.next }) := by
    rw [number?, h]
    rfl
  rw [parseWord, bind_run_ok (t := { s with cursor := s.cursor.next }) rfl,
    if_neg (not_truth_of_read? (by rw [h]; simp)), bind_run_ok read]
  rfl

theorem parseWord_oversized {oversized : Oversized} (h : Number.read? word.value.toList = .error oversized) :
    ∃ failure, (parseWord inner word source s).1 = .error failure := by
  have failed : (number? word source { s with cursor := s.cursor.next }).1 =
      .error (.input (.longNumber oversized.digits)) := by
    rw [number?, h]
    rfl
  rw [parseWord, bind_run_ok (t := { s with cursor := s.cursor.next }) rfl,
    if_neg (not_truth_of_read? (by rw [h]; simp)), bind_run_error failed]
  exact ⟨_, rfl⟩

/-- A text without embedded expressions is a literal. -/
theorem parseText_plain (inner : Parse Expr) (source : Source)
    (passes : ∀ c ∈ Check.string t.value "string literal", c.Passes s.guard.policy.enforced)
    (plain : Segment.embeds t.value.toList = false) :
    ∃ guard, guard.policy = s.guard.policy ∧
      parseText inner t source s = (.ok (.literal (.text t.value)), { s with guard }) := by
  obtain ⟨guard, same, passed⟩ := check_passes passes source
  refine ⟨guard, same, ?_⟩
  rw [parseText, bind_run_ok passed, plain]
  rfl

/-- A path that is the name of a function is read with its arguments. -/
theorem parseWord_call (inner : Parse Expr) (source : Source) (left : Left policy (word :: next :: later) s)
    (path : isPath word.value.toList = true) (passes : (Check.text word.value "identifier").Passes policy.enforced)
    (other : ¬ (word.value = "true" ∨ word.value = "false")) (opens : next.isSymbol "(" = true) :
    ∃ s', Left policy (next :: later) s' ∧ parseWord inner word source s =
      (do return .call word.value (← parseArguments inner) : Parse Expr) source s' := by
  rw [← left.policy] at passes
  obtain ⟨guard, same, named⟩ := parseWord_name inner source path other passes
  have reached := (left.next (by simp)).checked same
  rw [named, bind_run_ok (atSymbol_run "(" source _), reached.current, if_pos opens]
  exact ⟨_, reached, rfl⟩

/-- If the arguments of calls are read, the operands are. -/
theorem consumes_operand (args : ∀ tokens, Parenthesized Read tokens →
      Consumes policy (fun _ => True) (parseArguments inner) tokens) (h : Operand ∅ policy Read tokens) :
    Consumes policy (·.isSymbol "(" = false) (parseOperandWith inner) tokens := by
  intro source s next later left alone
  cases h with
  | @string t kind passes plain =>
    have reached := left.next (by simp)
    rw [← left.policy] at passes
    obtain ⟨guard, same, read⟩ := parseText_plain (s := { s with cursor := s.cursor.next }) inner source passes plain
    rw [parseOperandWith, bind_run_ok (current_run source s), left.current, kind]
    exact ⟨_, _, read, reached.checked same⟩
  | @number t kind numeral =>
    obtain ⟨number, read⟩ := numeral.exists_number
    rw [parseOperandWith_word (by rwa [left.current]), left.current, parseWord_number read]
    exact ⟨_, _, rfl, left.next (by simp)⟩
  | @truth t kind value =>
    rw [parseOperandWith_word (by rwa [left.current]), left.current, parseWord_bool value]
    exact ⟨_, _, rfl, left.next (by simp)⟩
  | @path t kind path passes =>
    have reached := left.next (by simp)
    rw [parseOperandWith_word (by rwa [left.current]), left.current]
    -- two of the names are words for truth values
    by_cases value : t.value = "true" ∨ t.value = "false"
    · rw [parseWord_bool value]
      exact ⟨_, _, rfl, reached⟩
    · rw [← left.policy] at passes
      obtain ⟨guard, same, read⟩ := parseWord_path inner source path value passes (by rwa [reached.current])
      rw [read]
      exact ⟨_, _, rfl, reached.checked same⟩
  | @call t tokens kind path passes name given =>
    obtain ⟨opens, inside, few, closes⟩ := given
    obtain ⟨s', reached, read⟩ := parseWord_call inner source left path passes
      (name.resolve_right (Set.notMem_empty _)) opens
    obtain ⟨es, u, parsed, reached'⟩ := args _ ⟨opens, inside, few, closes⟩ source s' next later reached trivial
    rw [parseOperandWith_word (by rwa [left.current]), left.current, read, bind_run_ok parsed]
    exact ⟨_, u, rfl, reached'⟩

/-- A faithful parser of expressions makes the parser of operands faithful. -/
theorem faithful_parseOperandWith (starts : ∀ tokens, Read tokens ∨ Meant tokens → Starts tokens)
    (hi : Faithful policy Token.Closes inner Read Meant) :
    Faithful policy (·.isSymbol "(" = false) (parseOperandWith inner) (Operand ∅ policy Read)
      (Operand liberties policy Meant) := by
  have args := faithful_parseArguments starts hi
  refine ⟨fun tokens => consumes_operand args.consumes, fun tokens h => ?_⟩
  cases h with
  | string kind passes plain => exact .inl (.string kind passes plain)
  | truth kind value => exact .inl (.truth kind value)
  | path kind path passes => exact .inl (.path kind path passes)
  | @number t kind numeral =>
    -- a numeral is read unless it has too many digits, and then nothing is
    refine numeral.short_or_oversized.imp (.number kind) fun ⟨oversized, long⟩ => ?_
    refine .of_failing fun source s next later left _ => ?_
    rw [parseOperandWith_word (by rwa [left.current]), left.current]
    exact parseWord_oversized long
  | @call t tokens kind path passes name given =>
    obtain ⟨opens, inside, few, closes⟩ := given
    by_cases value : t.value = "true" ∨ t.value = "false"
    · -- the name is read as a truth value, and the parenthesis is left
      refine .inr fun source s next later left _ e u read => ?_
      rw [parseOperandWith_word (by rwa [left.current]), left.current, parseWord_bool value] at read
      cases read
      rw [(left.next (by simp)).current]
      exact fun alone => absurd (opens.symm.trans alone) (by decide)
    · refine (args.stumbles _ ⟨opens, inside, few, closes⟩).imp (.call kind path passes (.inl value)) fun stumbles => ?_
      intro source s next later left _ e u read
      obtain ⟨s', reached, called⟩ := parseWord_call inner source left path passes value opens
      rw [parseOperandWith_word (by rwa [left.current]), left.current, called] at read
      rcases parsed : parseArguments inner source s' with ⟨failure | es, v⟩
      · rw [bind_run_error (by rw [parsed])] at read
        cases read
      · exact absurd trivial (stumbles source s' next later reached trivial es v parsed)

/-! ## What is no operand -/

/-- A token that no operand starts with. -/
inductive Halts (t : Token) : Prop
  | parenthesis (opens : t.isSymbol "(" = true)
  | closes (closes : t.Closes)
  | operator (sign : t.IsOperator)

/-- The sign of an operator is no operand. -/
theorem parseWord_sign {word : Token} (h : word.value ∈ ["+", "-", "*", "/", "%"]) :
    ∃ failure, (parseWord inner word source s).1 = .error failure := by
  have none : Number.read? word.value.toList = .ok none ∧ looksNumeric word.value.toList = false ∧
      isPath word.value.toList = false ∧ ¬ (word.value = "true" ∨ word.value = "false") := by
    simp only [List.mem_cons, List.not_mem_nil, or_false] at h
    rcases h with h | h | h | h | h <;> rw [h] <;> exact ⟨rfl, by decide, by decide, by decide⟩
  obtain ⟨number, looks, path, truth⟩ := none
  have read : number? word source { s with cursor := s.cursor.next } =
      (.ok Option.none, { s with cursor := s.cursor.next }) := by
    rw [number?, number, looks]
    rfl
  rw [parseWord, bind_run_ok (t := { s with cursor := s.cursor.next }) rfl, if_neg truth, bind_run_ok read]
  dsimp only
  rw [path]
  exact ⟨_, rfl⟩

theorem parseOperandWith_halts (h : Halts s.cursor.current) :
    ∃ failure, (parseOperandWith inner source s).1 = .error failure := by
  have other (kind : s.cursor.current.kind ≠ .string ∧ s.cursor.current.kind ≠ .word) :
      ∃ failure, (parseOperandWith inner source s).1 = .error failure := by
    rw [parseOperandWith, bind_run_ok (current_run source s)]
    cases found : s.cursor.current.kind with
    | string => exact absurd found kind.1
    | word => exact absurd found kind.2
    | symbol => exact ⟨_, rfl⟩
    | ending => exact ⟨_, rfl⟩
  have symbol {x : String} (h : s.cursor.current.isSymbol x = true) :
      ∃ failure, (parseOperandWith inner source s).1 = .error failure :=
    other (by rw [(Token.isSymbol_iff.mp h).1]; decide)
  cases h with
  | parenthesis opens => exact symbol opens
  | closes closes =>
    cases closes with
    | ending ends => exact other (by rw [of_decide_eq_true ends]; decide)
    | comma comma => exact symbol comma
    | parenthesis closing => exact symbol closing
  | operator sign =>
    cases sign with
    | comparison kind _ => exact other (by rw [kind]; decide)
    | arithmetic kind sign =>
      rw [parseOperandWith_word kind]
      exact parseWord_sign sign

end

end Expr

end Screenplay
