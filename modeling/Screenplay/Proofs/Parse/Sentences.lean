/-
The grammar of expressions. An expression is an operand with or without the sign of a negation before it, and with or
without an operator and another operand after it; an operand is a string literal, a number, a truth value, a path of
names or a call. Some of what the grammar allows is not read by the parser; each such liberty has a name here, so there
is one grammar for every set of them.
-/
import Mathlib.Data.Set.Basic
import Screenplay.Proofs.Parse.Paths

namespace Screenplay

open Screenplay.Text

/-! ## The grammar -/

namespace Token

/-- An operator between two operands. -/
inductive IsOperator (t : Token) : Prop
  | comparison (kind : t.kind = .symbol) (sign : t.value ∈ ["==", "!=", "<", ">", "<=", ">="])
  | arithmetic (kind : t.kind = .word) (sign : t.value ∈ ["+", "-", "*", "/", "%"])

/-- The sign of a negation. -/
inductive Negates (t : Token) : Prop
  | mark (symbol : t.isSymbol "!" = true)
  | not (word : t.isWord "not" = true)

/-- A token that may follow an expression: the end of the text, or what ends an argument of a call. -/
inductive Closes (t : Token) : Prop
  | ending (ends : t.isEnding = true)
  | comma (symbol : t.isSymbol "," = true)
  | parenthesis (symbol : t.isSymbol ")" = true)

end Token

/-- What the grammar allows and the parser does not read. -/
inductive Liberty where
  /-- an operator after a negated operand -/
  | negatedOperator
  /-- a name `not` at the start of an expression -/
  | leadingNot
  /-- a function whose name is that of a truth value -/
  | truthFunction
  /-- a whole number of any number of digits -/
  | longNumber

namespace Expr

section

variable (liberties : Set Liberty) (policy : Policy)

/-- A numeral: some digits, with or without a minus sign before them, and with or without a point and more digits
after them. -/
inductive Numeral : List Char → Prop
  | whole {sign digits : List Char} (signed : sign = [] ∨ sign = ['-']) (any : digits ≠ [])
    (all : ∀ c ∈ digits, isDigit c = true) (short : digits.length ≤ maxWholeDigits ∨ .longNumber ∈ liberties) :
    Numeral (sign ++ digits)
  | fraction {sign digits decimals : List Char} (signed : sign = [] ∨ sign = ['-']) (any : digits ≠ [])
    (all : ∀ c ∈ digits, isDigit c = true) (more : decimals ≠ []) (others : ∀ c ∈ decimals, isDigit c = true) :
    Numeral (sign ++ (digits ++ '.' :: decimals))

/-- Some expressions with commas between them, and their number. -/
inductive Arguments (inner : List Token → Prop) : Nat → List Token → Prop
  | none : Arguments inner 0 []
  | one {tokens : List Token} (arg : inner tokens) : Arguments inner 1 tokens
  | more {tokens later : List Token} {comma : Token} {count : Nat} (arg : inner tokens)
    (separates : comma.isSymbol "," = true) (args : Arguments inner (count + 1) later) :
    Arguments inner (count + 2) (tokens ++ comma :: later)

/-- The arguments of a call between parentheses. -/
inductive Parenthesized (inner : List Token → Prop) : List Token → Prop
  | intro {opening closing : Token} {args : List Token} {count : Nat} (opens : opening.isSymbol "(" = true)
    (inside : Arguments inner count args) (few : count ≤ maxArguments) (closes : closing.isSymbol ")" = true) :
    Parenthesized inner (opening :: (args ++ [closing]))

/-- The operands, with `inner` for the expressions in them. The names and the texts pass the checks of a policy, and
no expressions are embedded in the texts. -/
inductive Operand (inner : List Token → Prop) : List Token → Prop
  | string {t : Token} (kind : t.kind = .string)
    (passes : ∀ c ∈ Check.string t.value "string literal", c.Passes policy.enforced)
    (plain : Segment.embeds t.value.toList = false) : Operand inner [t]
  | number {t : Token} (kind : t.kind = .word) (numeral : Numeral liberties t.value.toList) : Operand inner [t]
  | truth {t : Token} (kind : t.kind = .word) (value : t.value = "true" ∨ t.value = "false") : Operand inner [t]
  | path {t : Token} (kind : t.kind = .word) (path : isPath t.value.toList = true)
    (passes : (Check.text t.value "identifier").Passes policy.enforced) : Operand inner [t]
  | call {t : Token} {args : List Token} (kind : t.kind = .word) (path : isPath t.value.toList = true)
    (passes : (Check.text t.value "identifier").Passes policy.enforced)
    (name : ¬ (t.value = "true" ∨ t.value = "false") ∨ .truthFunction ∈ liberties) (given : Parenthesized inner args) :
    Operand inner (t :: args)

/-- Tokens that do not start with the word `not`. -/
def Positive (tokens : List Token) : Prop := ∀ t ∈ tokens.head?, t.isWord "not" = false

/-- The expressions made of some operands. -/
inductive Sentence (operand : List Token → Prop) : List Token → Prop
  | plain {tokens : List Token} (h : operand tokens) (start : Positive tokens ∨ .leadingNot ∈ liberties) :
    Sentence operand tokens
  | binary {left right : List Token} {op : Token} (hl : operand left)
    (start : Positive left ∨ .leadingNot ∈ liberties) (sign : op.IsOperator) (hr : operand right) :
    Sentence operand (left ++ op :: right)
  | negated {sign : Token} {tokens : List Token} (negates : sign.Negates) (h : operand tokens) :
    Sentence operand (sign :: tokens)
  | negatedBinary {mark op : Token} {left right : List Token} (liberty : .negatedOperator ∈ liberties)
    (negates : mark.Negates) (hl : operand left) (sign : op.IsOperator) (hr : operand right) :
    Sentence operand (mark :: (left ++ op :: right))

mutual

/-- The operands with at most some levels of nesting. -/
def Operands : Nat → List Token → Prop
  | 0 => fun _ => False
  | depth + 1 => Operand liberties policy (Sentences depth)

/-- The expressions with at most some levels of nesting. -/
def Sentences : Nat → List Token → Prop
  | 0 => fun _ => False
  | depth + 1 => Sentence liberties (Operands depth)

end

end

end Expr

/-! ## Tokens -/

namespace Token

variable {t : Token} {symbol : String}

theorem Closes.alone (h : t.Closes) : t.isSymbol "(" = false := by
  cases h with
  | ending ends => exact isSymbol_of_kind (by rw [of_decide_eq_true ends]; decide)
  | comma symbol => exact isSymbol_of_ne symbol (by decide)
  | parenthesis symbol => exact isSymbol_of_ne symbol (by decide)

theorem Negates.sign (h : t.Negates) : (t.isSymbol "!" || t.isWord "not") = true := by
  cases h with
  | mark symbol => rw [symbol, Bool.true_or]
  | not word => rw [word, Bool.or_true]

theorem operator?_of_isSymbol (h : t.isSymbol symbol = true) (none : Operator.ofSign? symbol = none) :
    t.operator? = Option.none := by
  rw [operator?, (isSymbol_iff.mp h).2, none]

theorem IsOperator.exists_operator? (h : t.IsOperator) : ∃ op, t.operator? = some op := by
  cases h with
  | comparison kind sign =>
    simp only [List.mem_cons, List.not_mem_nil, or_false] at sign
    rw [operator?, kind]
    rcases sign with h | h | h | h | h | h <;> rw [h] <;> exact ⟨_, rfl⟩
  | arithmetic kind sign =>
    simp only [List.mem_cons, List.not_mem_nil, or_false] at sign
    rw [operator?, kind]
    rcases sign with h | h | h | h | h <;> rw [h] <;> exact ⟨_, rfl⟩

theorem IsOperator.alone (h : t.IsOperator) : t.isSymbol "(" = false := by
  cases h with
  | comparison kind sign =>
    refine eq_false_of_ne_true fun symbol => ?_
    rw [(isSymbol_iff.mp symbol).2] at sign
    exact absurd sign (by decide)
  | arithmetic kind sign => exact isSymbol_of_kind (by rw [kind]; decide)

theorem Closes.operator? (h : t.Closes) : t.operator? = none := by
  cases h with
  | ending ends =>
    rw [Token.operator?, of_decide_eq_true ends]
    split <;> simp
  | comma symbol => exact operator?_of_isSymbol symbol rfl
  | parenthesis symbol => exact operator?_of_isSymbol symbol rfl

theorem IsOperator.not_closes (h : t.IsOperator) : ¬ t.Closes := by
  intro closes
  obtain ⟨op, sign⟩ := h.exists_operator?
  rw [closes.operator?] at sign
  cases sign

end Token

/-! ## How expressions begin -/

namespace Expr

variable {liberties : Set Liberty} {policy : Policy} {tokens : List Token}

/-- An operand starts with a string literal or with a word; and if this is the word `not`, with the name of a path that
ends there or of a function. -/
inductive Begins : List Token → Prop
  | intro {t : Token} {later : List Token} (kind : t.kind = .string ∨ t.kind = .word)
    (name : t.isWord "not" = true → later = [] ∨ ∃ opening others, later = opening :: others ∧
      opening.isSymbol "(" = true) : Begins (t :: later)

theorem begins_operand {inner : List Token → Prop} (h : Operand liberties policy inner tokens) : Begins tokens := by
  cases h with
  | string kind _ _ => exact ⟨.inl kind, fun _ => .inl rfl⟩
  | number kind _ => exact ⟨.inr kind, fun _ => .inl rfl⟩
  | truth kind _ => exact ⟨.inr kind, fun _ => .inl rfl⟩
  | path kind _ _ => exact ⟨.inr kind, fun _ => .inl rfl⟩
  | call kind _ _ _ given =>
    obtain ⟨opens, -, -, -⟩ := given
    exact ⟨.inr kind, fun _ => .inr ⟨_, _, rfl, opens⟩⟩

/-- Tokens that do not start with the end of a list of arguments. -/
def Starts (tokens : List Token) : Prop := ∃ t later, tokens = t :: later ∧ t.isSymbol ")" = false

theorem begins_operands {depth : Nat} (h : Operands liberties policy depth tokens) : Begins tokens := by
  cases depth with
  | zero => exact h.elim
  | succ depth => exact begins_operand h

theorem starts_sentences {depth : Nat} (h : Sentences liberties policy depth tokens) : Starts tokens := by
  cases depth with
  | zero => exact h.elim
  | succ depth =>
    have operand {tokens : List Token} (h : Operands liberties policy depth tokens) (later : List Token) :
        Starts (tokens ++ later) := by
      obtain ⟨kind, -⟩ := begins_operands h
      exact ⟨_, _, rfl, Token.isSymbol_of_kind (by rcases kind with kind | kind <;> rw [kind] <;> decide)⟩
    have sign {sign : Token} (h : sign.Negates) (later : List Token) : Starts (sign :: later) := by
      refine ⟨_, _, rfl, ?_⟩
      cases h with
      | mark symbol => exact Token.isSymbol_of_ne symbol (by decide)
      | not word => exact Token.isSymbol_of_kind (by rw [(Token.isWord_iff.mp word).1]; decide)
    cases h with
    | plain h _ => exact List.append_nil tokens ▸ operand h []
    | binary hl _ _ _ => exact operand hl _
    | negated negates _ => exact sign negates _
    | negatedBinary _ negates _ _ _ => exact sign negates _

end Expr

/-! ## Numerals -/

theorem splitMinus_append {sign digits : List Char} (signed : sign = [] ∨ sign = ['-']) (any : digits ≠ [])
    (all : ∀ c ∈ digits, isDigit c = true) (later : List Char) :
    ∃ negative, splitMinus (sign ++ (digits ++ later)) = (negative, digits ++ later) := by
  rcases signed with rfl | rfl
  · cases digits with
    | nil => exact absurd rfl any
    | cons c cs =>
      refine ⟨false, ?_⟩
      unfold splitMinus
      split
      · next heq =>
        cases heq
        exact absurd (all '-' List.mem_cons_self) (by decide)
      · rfl
  · exact ⟨true, rfl⟩

/-- A run of digits is split off up to what is no digit. -/
theorem span_isDigit {digits : List Char} (later : List Char) (all : ∀ c ∈ digits, isDigit c = true)
    (stops : ∀ c ∈ later.head?, isDigit c = false) : (digits ++ later).span isDigit = (digits, later) := by
  rw [List.span_eq_takeWhile_dropWhile, List.takeWhile_append_of_pos all, List.dropWhile_append_of_pos all]
  cases later with
  | nil => simp
  | cons c cs =>
    have stop := stops c rfl
    simp [stop]

namespace Number

theorem read?_whole {sign digits : List Char} (signed : sign = [] ∨ sign = ['-']) (any : digits ≠ [])
    (all : ∀ c ∈ digits, isDigit c = true) :
    (digits.length ≤ maxWholeDigits → ∃ number, read? (sign ++ digits) = .ok (some number)) ∧
      (maxWholeDigits < digits.length → ∃ oversized, read? (sign ++ digits) = .error oversized) := by
  obtain ⟨negative, split⟩ := splitMinus_append signed any all []
  have run := span_isDigit [] all nofun
  rw [List.append_nil] at split run
  rw [read?, split]
  dsimp only
  rw [run]
  simp only [List.isEmpty_iff, any, if_false]
  constructor
  · intro short
    rw [if_neg (Nat.not_lt.mpr short)]
    exact ⟨_, rfl⟩
  · intro long
    rw [if_pos long]
    exact ⟨_, rfl⟩

theorem read?_fraction {sign digits decimals : List Char} (signed : sign = [] ∨ sign = ['-']) (any : digits ≠ [])
    (all : ∀ c ∈ digits, isDigit c = true) (more : decimals ≠ []) (others : ∀ c ∈ decimals, isDigit c = true) :
    ∃ number, read? (sign ++ (digits ++ '.' :: decimals)) = .ok (some number) := by
  obtain ⟨negative, split⟩ := splitMinus_append signed any all ('.' :: decimals)
  have point : isDigit '.' = false := by decide
  have run := span_isDigit ('.' :: decimals) all (by rintro _ ⟨⟩; exact point)
  have rest := span_isDigit [] others nofun
  rw [List.append_nil] at rest
  rw [read?, split]
  dsimp only
  rw [run]
  simp only [List.isEmpty_iff, any, if_false, rest, more, ne_eq, not_true_eq_false, false_and, or_self]
  exact ⟨_, rfl⟩

end Number

namespace Expr.Numeral

variable {liberties : Set Liberty} {text : List Char}

theorem exists_number (h : Numeral ∅ text) : ∃ number, Number.read? text = .ok (some number) := by
  cases h with
  | whole signed any all short => exact (Number.read?_whole signed any all).1 (short.resolve_right (Set.notMem_empty _))
  | fraction signed any all more others => exact Number.read?_fraction signed any all more others

theorem short_or_oversized (h : Numeral liberties text) :
    Numeral ∅ text ∨ ∃ oversized, Number.read? text = .error oversized := by
  cases h with
  | whole signed any all _ =>
    rcases Nat.lt_or_ge maxWholeDigits _ with long | short
    · exact .inr ((Number.read?_whole signed any all).2 long)
    · exact .inl (.whole signed any all (.inl short))
  | fraction signed any all more others => exact .inl (.fraction signed any all more others)

end Expr.Numeral

end Screenplay
