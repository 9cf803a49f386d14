/-
The parser of UI trees. A node is told by its keyword.
-/
import Screenplay.Action.Parser
import Screenplay.Node

namespace Screenplay.Node

open Screenplay.Parse

/-! ## Leaves -/

/-- Parses an image after its keyword. -/
def parseImage : Parse Node := do
  let source := (← string "image source").value
  check [.limit "image source length" source.length maxImageSource, .text source "image source"]
  return .image source

/-- Parses an input after its keyword. The word `binding` and a colon may stand before the name of
the state variable. -/
def parseInput : Parse Node := do
  let label := (← string "input label").value
  check (Check.string label "input label")
  if ← atWord "binding" then
    discard advance
    discard (skipSymbol ":")
  let binding := (← word "state binding").value
  check (Check.stateName binding)
  return .input label binding

/-- Parses a button after its keyword: its label, a navigation, the name of a handler, and a block of
actions, all but the label optional. -/
def parseButton (inner : Parse Expr) (block : Parse (List Action)) : Parse Node := do
  let label := (← string "button label").value
  check [.limit "button label length" label.length maxButtonLabel, .text label "button label"]
  let navigation ←
    if ← skipSymbol "->" then pure (some (← Action.parseNavigation inner)) else pure none
  let handler ← if ← atWord "action" then
      discard advance
      let name := (← word "action name").value
      check [.text name "action reference"]
      pure (some name)
    else pure none
  let actions ← if ← atSymbol "\x7b" then block else pure []
  return .button label navigation handler actions

/-- Puts one property into a component; a comma may follow it. -/
def addProperty (inner : Parse Expr) (props : Entries Expr) : Parse (Entries Expr) := do
  let key := (← word "property name").value
  check [.text key "component property"]
  expectSymbol ":"
  let value ← inner
  discard (skipSymbol ",")
  return props.put key value

/-- Parses a component after its keyword. -/
def parseComponent (inner : Parse Expr) : Parse Node := do
  let name := (← word "component name").value
  check [.text name "component name"]
  expectSymbol "\x7b"
  let props ← itemsUntil "\x7d" (addProperty inner) []
  expectSymbol "\x7d"
  return .component name props

/-! ## Nodes with children -/

/-- Parses a list after its keyword. -/
def parseList (children : Parse (List Node)) : Parse Node := do
  let binding := (← word "list binding").value
  check (Check.stateName binding)
  let brace ← current
  let nodes ← children
  if nodes.isEmpty then failAt brace (.expected "list item template")
  return .list binding (ofBlock nodes)

/-- Parses a conditional after its keyword. -/
def parseConditional (inner : Parse Expr) (children : Parse (List Node)) : Parse Node := do
  let condition ← inner
  let thenBranch := ofBlock (← children)
  unless ← atWord "else" do return .conditional condition thenBranch none
  discard advance
  return .conditional condition thenBranch (some (ofBlock (← children)))

/-- Parses a node whose keyword is known to be next. -/
def parseKeyword (inner : Parse Expr) (block : Parse (List Action)) (children : Parse (List Node))
    (keyword : String) : Parse Node := do
  if let some layout := Layout.ofName? keyword then
    discard advance
    return .container layout (← children)
  if let some role := TextRole.ofKeyword? keyword then
    discard advance
    return .text role (← Expr.parseText inner (← string "string literal"))
  match keyword with
  | "button" => advance *> parseButton inner block
  | "image" => advance *> parseImage
  | "input" => advance *> parseInput
  | "list" => advance *> parseList children
  | "if" => advance *> parseConditional inner children
  | "component" => advance *> parseComponent inner
  | _ => fail (.expected "UI element")

/-- Parses a node. -/
def parseWith (inner : Parse Expr) (block : Parse (List Action)) (children : Parse (List Node)) :
    Parse Node := do
  let token ← current
  if token.kind = .word then parseKeyword inner block children token.value
  else fail (.expected "UI element")

/-! ## Trees -/

/-- Parses nodes between braces with at most some levels of nesting. -/
def parseChildren : Nat → Parse (List Node)
  | 0 => do
    expectSymbol "\x7b"
    tooDeep
  | depth + 1 =>
    braced (parseWith (Expr.parse depth) (Action.parseBlock depth) (parseChildren depth))

/-- Parses nodes between braces to one node. -/
def parseTree : Parse Node := return ofBlock (← parseChildren maxDepth)

end Screenplay.Node
