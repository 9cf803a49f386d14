/-
The parser of screens: parameters, and in any order state, one UI tree and named handlers.
-/
import Screenplay.Node.Parser
import Screenplay.Program.Checks
import Screenplay.Program.Declarations

namespace Screenplay

open Parse

/-- Parses a parameter of a screen. Its type may be left out. -/
def Param.parse : Parse Param := do
  let name := (← word "parameter name").value
  check (Check.stateName name)
  if ← skipSymbol ":" then return ⟨name, (← word "parameter type").value⟩
  return ⟨name, "Any"⟩

/-- Parses a handler after its keyword. -/
def Handler.parse : Parse Handler := do
  let name := (← word "action name").value
  check [.text name "action name"]
  return ⟨name, ← Action.parseBlock maxDepth⟩

/-- What has been read of a screen. -/
structure ScreenBody where
  state : List StateVar
  ui : Option Node
  handlers : List Handler

namespace ScreenBody

/-- Parses one item of the body of a screen. -/
def parseItem (screen : String) (appState : List StateVar) (body : ScreenBody) :
    Parse ScreenBody := do
  let token ← current
  if token.isWord "state" then
    return { body with state := ← StateVar.parseGroup appState body.state }
  if token.isWord "ui" then
    if body.ui.isSome then fail (.secondLayout screen)
    discard advance
    return { body with ui := some (← Node.parseTree) }
  if token.isWord "action" then
    discard advance
    return { body with handlers := ← adding Handler.parse body.handlers }
  fail (.expected "'state', 'ui' or 'action' in screen body")

end ScreenBody

namespace Screen

/-- Parses the parameters of a screen, if there are any. -/
def parseParams : Parse (List Param) := do
  unless ← skipSymbol "(" do return []
  let params ← itemsBetweenCommas ")" (adding Param.parse) []
  expectSymbol ")"
  return params

/-- Parses a screen. A screen without a UI tree shows an empty column. -/
def parse (appState : List StateVar) : Parse Screen := do
  discard (expectWord "screen")
  let name := (← word "screen name").value
  check [.text name "screen name"]
  let params ← parseParams
  expectSymbol "\x7b"
  let body ← itemsUntil "\x7d" (ScreenBody.parseItem name appState) ⟨[], none, []⟩
  expectSymbol "\x7d"
  let ui := body.ui.getD (.container .column [])
  settle ((← get).guard.checkTree name ui)
  return { name, params, state := body.state, ui, handlers := body.handlers }

end Screen

end Screenplay
