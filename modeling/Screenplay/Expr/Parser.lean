/-
The expression parser. An expression is a negated operand, or an operand, or two operands with an
operator between them; an operand is a literal, a path of names, a call, or a text, whose embedded
expressions are parsed in turn.
-/
import Screenplay.Expr.Interpolation
import Screenplay.Token.Lexer
import Screenplay.Token.Parse

namespace Screenplay

/-! ## Words -/

/-- A character that may start a name. -/
def isNameStart (c : Char) : Bool := c.isAlpha || c == '_' || c == '$'

/-- A character of a name. -/
def isNameChar (c : Char) : Bool := isNameStart c || c.isDigit

/-- A name. -/
def isName : List Char → Bool
  | [] => false
  | c :: cs => isNameStart c && cs.all isNameChar

/-- Names with points between them. -/
def isPath (text : List Char) : Bool := (Text.cutAt '.' text).all isName

/-- The expression of a path as written. -/
def Expr.ofPathText (text : String) : Expr :=
  .ofPath ((Text.cutAt '.' text.toList).map String.ofList)

/-- The operator that a token is. -/
def Token.operator? (t : Token) : Option Operator :=
  match Operator.ofSign? t.value with
  | some op =>
    if (t.kind = .word ∧ op.isWord) ∨ (t.kind = .symbol ∧ ¬ op.isWord) then some op else none
  | none => none

namespace Parse

/-- The number that a word is; fails at a word that only starts like one. -/
def number? (token : Token) : Parse (Option Number) := do
  match Number.read? token.value.toList with
  | .error oversized => throw (.input (.longNumber oversized.digits))
  | .ok (some number) => return some number
  | .ok none =>
    if looksNumeric token.value.toList then failAt token .invalidNumber else return none

end Parse

namespace Expr

open Parse

/-! ## Texts -/

/-- What is wrong with an embedded source whose string literal is never closed. It is located in the
embedded source itself. -/
def openStringError (file : Option String) (text : List Char) (e : Token.OpenString) : ParseError :=
  { cause := .unterminatedString
    found := some e.text
    location :=
      { file
        line := e.position.line
        column := e.position.column
        excerpt := some (String.ofList ((Text.LineIndex.ofText text).lineText e.position.line)) } }

/-- Parses an embedded source to its end. Its tokens stand where the text stands that they are
embedded in. -/
def parseEmbedded (inner : Parse Expr) (origin : Token) (source : List Char) : Parse Expr := do
  match Token.scan source with
  | .error e => throw (.parse (openStringError none source e))
  | .ok tokens =>
    let outside := (← get).cursor
    goTo (.ofTokens (tokens.map ({ · with position := origin.position })))
    let e ← inner
    unless ← atEnding do fail .trailingText
    goTo outside
    return e

/-- Parses the pieces of an interpolated text. -/
def parseSegments (inner : Parse Expr) (origin : Token) : List Segment → Parse (List Expr)
  | [] => return []
  | .literal text :: later =>
    return .literal (.text (String.ofList text)) :: (← parseSegments inner origin later)
  | .embedded source :: later => do
    let e ← parseEmbedded inner origin source
    return e :: (← parseSegments inner origin later)

/-- The expression of a string literal: a text, or an interpolation if expressions are embedded. -/
def parseText (inner : Parse Expr) (token : Token) : Parse Expr := do
  check (Check.string token.value "string literal")
  let text := token.value.toList
  if Segment.embeds text then
    return .interpolation (← parseSegments inner token (Segment.ofText text))
  else return .literal (.text token.value)

/-! ## Calls -/

/-- Adds one argument to a list, whose length is bounded. -/
def addArgument (inner : Parse Expr) (args : List Expr) : Parse (List Expr) := do
  let args ← adding inner args
  check [.limit "function call arguments" args.length maxArguments]
  return args

/-- Parses the arguments of a call. -/
def parseArguments (inner : Parse Expr) : Parse (List Expr) := do
  expectSymbol "("
  let args ← itemsBetweenCommas ")" (addArgument inner) []
  expectSymbol ")"
  return args

/-! ## Operands and expressions -/

/-- Parses an operand that starts with a word. -/
def parseWord (inner : Parse Expr) (token : Token) : Parse Expr := do
  discard advance
  if token.value = "true" ∨ token.value = "false" then
    return .literal (.bool (token.value = "true"))
  if let some number ← number? token then return .literal (.ofNumber number)
  unless isPath token.value.toList do failAt token (.expected "expression")
  check [.text token.value "identifier"]
  if ← atSymbol "(" then return .call token.value (← parseArguments inner)
  return .ofPathText token.value

/-- Parses an operand, with `inner` for the expressions inside it. -/
def parseOperandWith (inner : Parse Expr) : Parse Expr := do
  let token ← current
  match token.kind with
  | .string =>
    discard advance
    parseText inner token
  | .word => parseWord inner token
  | _ => fail (.expected "expression")

/-- Parses an expression made of some operands. -/
def parseWith (operand : Parse Expr) : Parse Expr := do
  if (← atSymbol "!") || (← atWord "not") then
    discard advance
    return .not (← operand)
  let left ← operand
  match (← current).operator? with
  | some op =>
    discard advance
    return .binary op left (← operand)
  | none => return left

/-- Parses an operand, and any expressions in it, with at most some levels of nesting. -/
def parseOperand : Nat → Parse Expr
  | 0 => tooDeep
  | 1 => parseOperandWith tooDeep
  | depth + 2 => parseOperandWith (parseWith (parseOperand depth))

/-- Parses an expression with at most some levels of nesting. -/
def parse : Nat → Parse Expr
  | 0 => tooDeep
  | depth + 1 => parseWith (parseOperand depth)

end Expr

end Screenplay
