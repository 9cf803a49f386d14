/-
The parser of programs, and reading a source text under a policy. The guard of the policy stands by
while the text is read: the first check that fails ends the reading, and a lenient policy lets hits
on its denylist through.
-/
import Screenplay.Screen.Parser

namespace Screenplay

open Parse

/-! ## The app block -/

/-- What has been read of an app block. -/
structure AppBody where
  start : Option String
  state : List StateVar

/-- Parses one item of an app block. -/
def AppBody.parseItem (body : AppBody) : Parse AppBody := do
  let token ← current
  if token.isWord "start" then
    discard advance
    expectSymbol "="
    let start ← name "start screen"
    check [.text start "start screen"]
    return { body with start := some start }
  if token.isWord "state" then return { body with state := ← StateVar.parseGroup [] body.state }
  fail (.expected "'start' or 'state' in app block")

/-! ## Programs -/

namespace Program

/-- Adds a screen to those read before, whose number is bounded. -/
def addScreen (appState : List StateVar) (screens : List Screen) : Parse (List Screen) := do
  let screens ← adding (Screen.parse appState) screens
  check [Check.screenCount screens.length]
  return screens

/-- Parses a program up to the end of the text. -/
def parser : Parse Program := do
  let opening ← expectWord "app"
  let name ← Parse.name "app name"
  check (Check.appName name)
  expectSymbol "\x7b"
  let app ← itemsUntil "\x7d" AppBody.parseItem ⟨none, []⟩
  expectSymbol "\x7d"
  let start ← match app.start with
    | some start => pure start
    | none => failAt opening .missingStart
  let imports ← itemsFrom "import" (adding parseImport) []
  let models ← itemsFrom "data" (adding DataModel.parse) []
  let screens ← itemsFrom "screen" (addScreen app.state) []
  if screens.isEmpty then fail (.expected "at least one screen")
  unless ← atEnding do fail (.expected "'screen' or end of input")
  return { name, start, screens, state := app.state, imports, models }

end Program

/-! ## Reading source texts -/

namespace Source

/-- A source text, with the file that errors name. -/
def ofText (text : String) (file : Option String) : Source := ⟨.ofText text.toList, file⟩

/-- The tokens of a source text. -/
def tokens (source : Source) : Except Failure (List Token) :=
  match Token.scan source.lines.text with
  | .ok tokens => .ok tokens
  | .error e => .error (.parse (Expr.openStringError source.file source.lines.text e))

end Source

namespace Policy

/-- Reads a source text with a parser under a policy: what was read, the tokens left over, and the
guard with the hits let through. -/
def read {α : Type} (policy : Policy) (parser : Parse α) (source : Source) :
    Except Failure (α × List Token) × Guard :=
  match source.tokens with
  | .error failure => (.error failure, ⟨policy, []⟩)
  | .ok tokens =>
    let (outcome, state) := parser.runOn source tokens ⟨policy, []⟩
    (outcome.map (·, state.cursor.rest), state.guard)

end Policy

namespace Program

/-- Reads a program from a source text at a level. -/
def parse (level : Level) (source : Source) : Except Failure Program × Guard :=
  let (outcome, guard) := (Policy.ofLevel level).read parser source
  (outcome.map (·.1), guard)

end Program

end Screenplay
