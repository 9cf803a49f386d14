/-
Parsing over tokens: what a parser sees of a source text, how it moves through the tokens, how it
fails, and the loops it is made of. The names and literals that a parser meets pass the checks of a
guard; a check that fails refuses the whole text, and no other way of reading it is tried.
-/
import Screenplay.Failure
import Screenplay.Guard
import Screenplay.Token

namespace Screenplay

/-- A source text as a parser sees it. -/
structure Source where
  lines : Text.LineIndex
  /-- the file that errors name -/
  file : Option String
deriving Repr, DecidableEq

/-- The characters of a source text between two offsets. -/
def Source.slice (source : Source) (start stop : Nat) : String :=
  String.ofList ((source.lines.text.drop start).take (stop - start))

/-- Where a parser stands: the token read last, the next one, and those after it. The end of the text
is the last token. -/
structure Cursor where
  last : Token
  current : Token
  later : List Token
deriving Repr, DecidableEq

namespace Cursor

/-- The start of some tokens. -/
def ofTokens : List Token → Cursor
  | [] => let ending := Token.endingAt 0 .first; ⟨ending, ending, []⟩
  | t :: ts => ⟨t, t, ts⟩

/-- The place after the next token; the end of the text is never passed. -/
def next (c : Cursor) : Cursor :=
  match c.later with
  | [] => c
  | t :: ts => ⟨c.current, t, ts⟩

/-- The token after the next one. -/
def following (c : Cursor) : Token := c.later.headD c.current

/-- The tokens not read yet. -/
def rest (c : Cursor) : List Token := c.current :: c.later

end Cursor

/-- What a parser changes: its place, its guard, and the number of state variables declared. -/
structure ParseState where
  cursor : Cursor
  guard : Guard
  declared : Nat
deriving Repr, DecidableEq

/-- A parser. When it fails, it still leaves a state behind. -/
abbrev Parse := ReaderT Source (ExceptT Failure (StateM ParseState))

namespace Parse

variable {α σ : Type}

/-! ## Tokens -/

/-- The next token. -/
def current : Parse Token := return (← get).cursor.current

/-- The token read last. -/
def previous : Parse Token := return (← get).cursor.last

/-- The token after the next one. -/
def following : Parse Token := return (← get).cursor.following

/-- Puts the parser at a place. -/
def goTo (cursor : Cursor) : Parse Unit := modify ({ · with cursor })

/-- Reads the next token. -/
def advance : Parse Token := do
  let cursor := (← get).cursor
  goTo cursor.next
  return cursor.current

/-- Whether the next token is a symbol. -/
def atSymbol (symbol : String) : Parse Bool := return (← current).isSymbol symbol

/-- Whether the next token is a word. -/
def atWord (word : String) : Parse Bool := return (← current).isWord word

/-- Whether everything has been read. -/
def atEnding : Parse Bool := return (← current).isEnding

/-! ## Failing -/

/-- The error of a cause at a token. -/
def errorAt (source : Source) (token : Token) (cause : ParseCause) : ParseError :=
  { cause
    found := if token.isEnding then none else some token.text
    location :=
      { file := source.file
        line := token.position.line
        column := token.position.column
        excerpt := some (String.ofList (source.lines.lineText token.position.line)) } }

/-- Fails at a token. -/
def failAt (token : Token) (cause : ParseCause) : Parse α := do
  throw (.parse (errorAt (← read) token cause))

/-- Fails at the next token. -/
def fail (cause : ParseCause) : Parse α := do failAt (← current) cause

/-- Refuses the source text. -/
def refuse (violation : Violation) : Parse α := throw (.refused violation)

/-- Refuses a construct that is nested too deeply. -/
def tooDeep : Parse α := refuse (.limit "nesting depth" (maxDepth + 1) maxDepth)

/-- The state after a check, and its outcome. -/
def settle (outcome : Except Violation Unit × Guard) : Parse Unit := do
  modify ({ · with guard := outcome.2 })
  match outcome.1 with
  | .ok () => return ()
  | .error violation => refuse violation

/-- Applies checks. -/
def check (checks : List Check) : Parse Unit := do settle ((← get).guard.check checks)

/-- A parser, and if that fails with a parse error, another one from the same place. What the guard
noted on the way stays. -/
def orElseFrom (first second : Parse α) : Parse α := fun source state =>
  match first source state with
  | (.error (.parse _), failed) => second source { failed with cursor := state.cursor }
  | outcome => outcome

/-! ## Expected tokens -/

/-- Reads a symbol. -/
def expectSymbol (symbol : String) : Parse Unit := do
  if ← atSymbol symbol then discard advance else fail (.expected s!"'{symbol}'")

/-- Reads a keyword. -/
def expectWord (word : String) : Parse Token := do
  if ← atWord word then advance else fail (.expected s!"'{word}'")

/-- Reads a symbol if it is the next token. -/
def skipSymbol (symbol : String) : Parse Bool := do
  if ← atSymbol symbol then
    discard advance
    return true
  else return false

/-- Reads a word of any spelling, which is to be `what`. -/
def word (what : String) : Parse Token := do
  if (← current).kind = .word then advance else fail (.expected what)

/-- Reads a string literal, which is to be `what`. -/
def string (what : String) : Parse Token := do
  if (← current).kind = .string then advance else fail (.expected what)

/-- Reads a word or a string literal, which is to be `what`. -/
def name (what : String) : Parse String := do
  let kind := (← current).kind
  if kind = .word ∨ kind = .string then return (← advance).value else fail (.expected what)

/-! ## Loops -/

/-- What a round of a loop leads to. -/
inductive Round (σ : Type) where
  | again (s : σ)
  | done (s : σ)

/-- Runs rounds until one is the last, at most a number of them. -/
def roundsUpTo (round : σ → Parse (Round σ)) : Nat → σ → Parse σ
  | 0, _ => throw .stalled
  | n + 1, s => do
    match ← round s with
    | .again s => roundsUpTo round n s
    | .done s => return s

/-- Runs rounds until one is the last. Every other round reads at least one token. -/
def rounds (round : σ → Parse (Round σ)) (s : σ) : Parse σ := do
  roundsUpTo round ((← get).cursor.later.length + 1) s

/-- Items up to a closing symbol, which stays unread. -/
def itemsUntil (closing : String) (item : σ → Parse σ) : σ → Parse σ :=
  rounds fun s => do
    if ← atSymbol closing then return .done s
    else return .again (← item s)

/-- Items between commas up to a closing symbol, which stays unread; a comma may end them. Without a
comma after an item, the items end. -/
def itemsBetweenCommas (closing : String) (item : σ → Parse σ) : σ → Parse σ :=
  rounds fun s => do
    if ← atSymbol closing then return .done s
    let s ← item s
    if ← skipSymbol "," then return .again s else return .done s

/-- Items that start with a word, as long as there are any. -/
def itemsFrom (start : String) (item : σ → Parse σ) : σ → Parse σ :=
  rounds fun s => do
    if ← atWord start then return .again (← item s) else return .done s

/-- A step that adds one item to a list. -/
def adding (item : Parse α) (items : List α) : Parse (List α) := return items ++ [← item]

/-- An item that does not start at the end of the text. -/
def beforeEnding (item : Parse α) : Parse α := do
  if ← atEnding then fail (.expected "'\x7d'") else item

/-- Items between braces. -/
def braced (item : Parse α) : Parse (List α) := do
  expectSymbol "\x7b"
  let items ← itemsUntil "\x7d" (adding (beforeEnding item)) []
  expectSymbol "\x7d"
  return items

/-! ## Running -/

/-- Runs a parser on some tokens. -/
def runOn (parser : Parse α) (source : Source) (tokens : List Token) (guard : Guard) :
    Except Failure α × ParseState :=
  parser source ⟨.ofTokens tokens, guard, 0⟩

end Parse

end Screenplay
