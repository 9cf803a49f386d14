/-
The lexer. A source text is a sequence of gaps and lexemes: a gap is white space and comments, a
lexeme is a string literal between quotes, a symbol, or a word, which runs to the next blank, quote,
comment or symbol. What a lexeme leaves over is shorter, so the lexer ends; it fails only at a
string literal that is never closed.
-/
import Screenplay.Text.Blank
import Screenplay.Token

namespace Screenplay.Token

open Screenplay.Text

/-! ## Gaps -/

/-- Whether a character belongs to a comment: the mark that starts one, or anything in it before the
line break. -/
def inComment (inside : Bool) (c : Char) : Bool := if inside then c != '\n' else c == '#'

/-- The white space and the comments at the start of a text, and the rest. `inside` tells that the
text starts inside a comment. -/
def splitGap (inside : Bool) : List Char → List Char × List Char
  | [] => ([], [])
  | c :: cs =>
    if inComment inside c then (c :: (splitGap true cs).1, (splitGap true cs).2)
    else if isBlank c then (c :: (splitGap false cs).1, (splitGap false cs).2)
    else ([], c :: cs)

theorem splitGap_append (inside : Bool) (cs : List Char) :
    (splitGap inside cs).1 ++ (splitGap inside cs).2 = cs := by
  induction cs generalizing inside with
  | nil => simp [splitGap]
  | cons c cs ih =>
    rw [splitGap]
    split
    · simp [ih true]
    · split
      · simp [ih false]
      · simp

/-! ## Lexemes -/

/-- A lexeme at the start of a text: its kind, its value, its characters, and the rest. -/
structure Lexeme where
  kind : TokenKind
  value : List Char
  raw : List Char
  rest : List Char
deriving Repr, DecidableEq

/-- The character that a backslash and another character stand for. -/
def unescape : Char → Char
  | 'n' => '\n'
  | 't' => '\t'
  | c => c

/-- A lexeme with one more character in front. -/
def Lexeme.push (l : Lexeme) (value raw : List Char) : Lexeme :=
  { l with value := value ++ l.value, raw := raw ++ l.raw }

/-- The content of a string literal after its opening quote, up to and with its closing quote. A
backslash takes the character after it along. -/
def stringTail? (quote : Char) : List Char → Option Lexeme
  | [] => none
  | [c] => if c = quote then some ⟨.string, [], [c], []⟩ else none
  | c :: d :: cs =>
    if c = quote then some ⟨.string, [], [c], d :: cs⟩
    else if c = '\\' then (stringTail? quote cs).map (·.push [unescape d] [c, d])
    else (stringTail? quote (d :: cs)).map (·.push [c] [c])

/-- The symbols of two characters. -/
def pairs : List (Char × Char) := [('-', '>'), ('=', '='), ('!', '='), ('<', '='), ('>', '=')]

/-- The symbols of one character. -/
def singles : List Char := ['{', '}', '(', ')', '[', ']', ':', ',', '=', '!', '<', '>']

/-- The symbol at the start of a text, the longest one. -/
def symbol? : List Char → Option Lexeme
  | [] => none
  | [c] => if singles.contains c then some ⟨.symbol, [c], [c], []⟩ else none
  | c :: d :: cs =>
    if pairs.contains (c, d) then some ⟨.symbol, [c, d], [c, d], cs⟩
    else if singles.contains c then some ⟨.symbol, [c], [c], d :: cs⟩
    else none

/-- A quote mark. -/
def isQuote (c : Char) : Bool := c == '"' || c == '\''

/-- A character that ends a word: a blank, a symbol, a quote, or the start of a comment. -/
def endsWord (c : Char) : Bool := isBlank c || singles.contains c || isQuote c || c == '#'

/-- The rest of a word, and what follows it. An arrow ends a word too. -/
def splitWord : List Char → List Char × List Char
  | [] => ([], [])
  | c :: cs =>
    if endsWord c || (c == '-' && cs.head? == some '>') then ([], c :: cs)
    else
      let (word, rest) := splitWord cs
      (c :: word, rest)

/-- The lexeme at the start of a text that starts with none of the characters of a gap. A string
literal that is never closed is none. -/
def lexeme? : List Char → Option Lexeme
  | [] => none
  | c :: cs =>
    if isQuote c then (stringTail? c cs).map fun l => { l with raw := c :: l.raw }
    else match symbol? (c :: cs) with
      | some l => some l
      | none =>
        let (word, rest) := splitWord cs
        some ⟨.word, c :: word, c :: word, rest⟩

/-! ## What a lexeme consumes -/

theorem stringTail?_append {quote : Char} {cs : List Char} {l : Lexeme}
    (h : stringTail? quote cs = some l) : l.raw ++ l.rest = cs := by
  fun_induction stringTail? quote cs generalizing l with
  | case1 => simp at h
  | case2 => simp only [Option.some.injEq] at h; subst h; rfl
  | case3 => simp at h
  | case4 => simp only [Option.some.injEq] at h; subst h; rfl
  | case5 _ _ _ ih =>
    obtain ⟨m, hm, rfl⟩ := Option.map_eq_some_iff.1 h
    simp [Lexeme.push, ih hm]
  | case6 _ _ _ _ _ ih =>
    obtain ⟨m, hm, rfl⟩ := Option.map_eq_some_iff.1 h
    simp [Lexeme.push, ih hm]

theorem symbol?_append {cs : List Char} {l : Lexeme} (h : symbol? cs = some l) :
    l.raw ++ l.rest = cs ∧ l.raw ≠ [] := by
  match cs with
  | [] => simp [symbol?] at h
  | [c] =>
    rw [symbol?] at h
    split at h
    · simp only [Option.some.injEq] at h; subst h; simp
    · simp at h
  | c :: d :: cs =>
    rw [symbol?] at h
    split at h
    · simp only [Option.some.injEq] at h; subst h; simp
    · split at h
      · simp only [Option.some.injEq] at h; subst h; simp
      · simp at h

theorem splitWord_append (cs : List Char) : (splitWord cs).1 ++ (splitWord cs).2 = cs := by
  induction cs with
  | nil => simp [splitWord]
  | cons c cs ih =>
    rw [splitWord]
    split
    · simp
    · simpa using ih

/-- A lexeme and what it leaves over are the text, and a lexeme is not empty. -/
theorem lexeme?_append {cs : List Char} {l : Lexeme} (h : lexeme? cs = some l) :
    l.raw ++ l.rest = cs ∧ l.raw ≠ [] := by
  match cs with
  | [] => simp [lexeme?] at h
  | c :: cs =>
    rw [lexeme?] at h
    split at h
    · obtain ⟨m, hm, rfl⟩ := Option.map_eq_some_iff.1 h
      simp [stringTail?_append hm]
    · split at h
      · next m hm => simp only [Option.some.injEq] at h; subst h; exact symbol?_append hm
      · simp only [Option.some.injEq] at h; subst h
        simp [splitWord_append]

theorem rest_shorter {inside : Bool} {cs : List Char} {l : Lexeme}
    (h : lexeme? (splitGap inside cs).2 = some l) : l.rest.length < cs.length := by
  obtain ⟨ha, hn⟩ := lexeme?_append h
  have := congrArg List.length (splitGap_append inside cs)
  have := congrArg List.length ha
  have := List.length_pos_iff.2 hn
  simp only [List.length_append] at *
  omega

/-! ## The lexer -/

/-- A string literal that is never closed: where it starts, and its first characters. -/
structure OpenString where
  position : Position
  text : String
deriving Repr, DecidableEq

/-- The token of a lexeme at some place. -/
def ofLexeme (l : Lexeme) (offset : Nat) (position : Position) : Token :=
  ⟨l.kind, String.ofList l.value, String.ofList l.raw, offset, offset + l.raw.length, position⟩

/-- The tokens of a text that starts at some place of a larger one. -/
def scanFrom (offset : Nat) (position : Position) (cs : List Char) :
    Except OpenString (List Token) :=
  let gap := (splitGap false cs).1
  let after := (splitGap false cs).2
  let offset := offset + gap.length
  let position := position.after gap
  if after.isEmpty then .ok [endingAt offset position]
  else match _h : lexeme? after with
    | none => .error ⟨position, String.ofList (after.take 20)⟩
    | some l => do
      let later ← scanFrom (offset + l.raw.length) (position.after l.raw) l.rest
      return ofLexeme l offset position :: later
termination_by cs.length
decreasing_by exact rest_shorter _h

/-- The tokens of a text, the end of the text last. -/
def scan (text : List Char) : Except OpenString (List Token) := scanFrom 0 .first text

/-- The texts of the tokens of a text, without its end. -/
def texts (tokens : List Token) : List String :=
  (tokens.filter (!·.isEnding)).map (·.text)

end Screenplay.Token
