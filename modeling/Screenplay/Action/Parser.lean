/-
The parser of action blocks. A statement that is not understood, or not finished at the end of its
line, is kept as raw code: the rest of its line, with any block that the line opens.
-/
import Screenplay.Action
import Screenplay.Expr.Parser

namespace Screenplay

open Parse

/-! ## Raw code -/

namespace Cursor

/-- The place after the raw code of a line: before the first token at brace depth zero that closes a
block or stands on another line. -/
def afterCode (line depth : Nat) (last current : Token) (later : List Token) : Cursor :=
  let stops := depth = 0 ∧ (current.isSymbol "\x7d" ∨ current.position.line ≠ line)
  if current.isEnding ∨ stops then ⟨last, current, later⟩
  else match later with
    | [] => ⟨last, current, []⟩
    | t :: ts =>
      let depth := if current.isSymbol "\x7b" then depth + 1
        else if current.isSymbol "\x7d" then depth - 1 else depth
      afterCode line depth current t ts

/-- The place after the raw code that starts at the next token. -/
def skipCode (c : Cursor) : Cursor :=
  match c.later with
  | [] => c
  | t :: ts =>
    afterCode c.current.position.line (if c.current.isSymbol "\x7b" then 1 else 0) c.current t ts

end Cursor

namespace Action

/-- Reads raw code. -/
def parseCode : Parse Action := do
  let first ← current
  goTo (← get).cursor.skipCode
  let text := (← read).slice first.start (← previous).stop
  check (Check.string text "action code")
  return .code text

/-! ## Statements without blocks -/

/-- Parses a navigation after its arrow. Arguments start on the line of the target. -/
def parseNavigation (inner : Parse Expr) : Parse Navigation := do
  let target ← word "navigation target"
  check [.limit "navigation target length" target.value.length maxTarget,
    .text target.value "navigation target"]
  let next ← current
  if next.isSymbol "(" ∧ next.position.line = target.position.line then
    return ⟨target.value, ← Expr.parseArguments inner⟩
  return ⟨target.value, []⟩

/-- Parses a call after the name of its function. -/
def parseCall (inner : Parse Expr) (function : String) : Parse Action := do
  check [.text function "function call"]
  return .call function (← Expr.parseArguments inner)

/-- Parses an assignment. -/
def parseUpdate (inner : Parse Expr) : Parse Action := do
  let name ← advance
  check (Check.stateName name.value)
  expectSymbol "="
  let first ← current
  let value ← inner
  return .update name.value value ((← read).slice first.start (← previous).stop)

/-- Parses an assignment or a call that starts with a path. -/
def parsePlain (inner : Parse Expr) : Parse Action := do
  let token ← current
  let next ← following
  if token.kind = .word ∧ isPath token.value.toList then
    if next.isSymbol "=" then return ← parseUpdate inner
    if next.isSymbol "(" then
      discard advance
      return ← parseCall inner token.value
  fail (.expected "statement")

/-! ## Statements with blocks -/

/-- Parses a loop. -/
def parseLoop (block : Parse (List Action)) : Parse Action := do
  discard (expectWord "for")
  let name ← word "loop variable"
  check (Check.stateName name.value)
  discard (expectWord "in")
  let range ← word "range"
  unless Text.occurs ['.', '.'] range.value.toList do failAt range (.expected "range 'a..b'")
  let body ← block
  check [.limit "loop body actions" body.length maxLoopBody]
  return .loop name.value range.value body

/-- Parses a conditional; `chained` reads a conditional that follows its `else`. -/
def parseBranchWith (inner : Parse Expr) (block : Parse (List Action)) (chained : Parse Action) :
    Parse Action := do
  discard (expectWord "if")
  let condition ← inner
  let thenActions ← block
  unless ← atWord "else" do return .branch condition thenActions []
  discard advance
  if ← atWord "if" then return .branch condition thenActions [← chained]
  return .branch condition thenActions (← block)

/-- Parses a statement by the token that it starts with. -/
def parseStructured (inner : Parse Expr) (block : Parse (List Action)) (branch : Parse Action) :
    Parse Action := do
  let token ← current
  if token.isSymbol "->" || token.isWord "navigate" then
    discard advance
    return .navigate (← parseNavigation inner)
  if token.isWord "call" then
    discard advance
    return ← parseCall inner (← word "function name").value
  if token.isWord "if" then return ← branch
  if token.isWord "for" then return ← parseLoop block
  parsePlain inner

/-- Whether a statement may end here: at the end of the text, of a block or of the line. -/
def atStatementEnd : Parse Bool := do
  let token ← current
  return token.isEnding || token.isSymbol "\x7d"
    || token.position.line != (← previous).position.line

/-- Parses a statement up to its end. -/
def parseFinished (structured : Parse Action) : Parse Action := do
  let action ← structured
  if ← atStatementEnd then return action else fail .unfinishedStatement

/-- Parses a statement, as raw code if nothing else. -/
def parseStatementWith (inner : Parse Expr) (block : Parse (List Action)) (branch : Parse Action) :
    Parse Action :=
  orElseFrom (parseFinished (parseStructured inner block branch)) parseCode

/-! ## Blocks -/

mutual

/-- Parses a block of actions with at most some levels of nesting. -/
def parseBlock : Nat → Parse (List Action)
  | 0 => do
    expectSymbol "\x7b"
    tooDeep
  | depth + 1 =>
    braced (parseStatementWith (Expr.parse depth) (parseBlock depth) (parseBranch depth))

/-- Parses a conditional with at most some levels of nesting. -/
def parseBranch : Nat → Parse Action
  | 0 => parseBranchWith tooDeep (do expectSymbol "\x7b"; tooDeep) tooDeep
  | depth + 1 =>
    parseBranchWith (Expr.parse (depth + 1))
      (braced (parseStatementWith (Expr.parse depth) (parseBlock depth) (parseBranch depth)))
      (parseBranch depth)

end

end Action

end Screenplay
