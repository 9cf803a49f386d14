/-
Errors of reading a source text: their causes, their wording and their place.
-/
import Screenplay.Location
import Screenplay.Text.Quoted

namespace Screenplay

/-! ## Causes -/

/-- What is wrong with a source text. -/
inductive ParseCause where
  /-- some construct is missing -/
  | expected (what : String)
  | unterminatedString
  | invalidNumber
  /-- an app block without a start screen -/
  | missingStart
  /-- a second layout in a screen -/
  | secondLayout (screen : String)
  /-- more text after an expression inside a string -/
  | trailingText
  /-- more text after a statement on the same line -/
  | unfinishedStatement
deriving Repr, DecidableEq

namespace ParseCause

/-- The kind of a cause. -/
def kind : ParseCause → String
  | expected _ => "expected"
  | unterminatedString => "unterminated_string"
  | invalidNumber => "invalid_number"
  | missingStart => "missing_field"
  | secondLayout _ | trailingText | unfinishedStatement => "unexpected_token"

/-- The wording of a cause. -/
def text : ParseCause → String
  | expected what => s!"Expected {what}"
  | unterminatedString => "Unterminated string literal"
  | invalidNumber => "Invalid number"
  | missingStart => "Missing required field 'start' in app block"
  | secondLayout screen => s!"Screen '{screen}' already has a ui block"
  | trailingText => "Unexpected token in interpolation"
  | unfinishedStatement => "Expected end of statement"

end ParseCause

/-! ## Errors -/

/-- An error of reading a source text. -/
structure ParseError where
  cause : ParseCause
  /-- the text found at the place of the error; none at the end of the input -/
  found : Option String
  location : Location
deriving Repr, DecidableEq

namespace ParseError

/-- The wording of what was found. -/
def foundText (e : ParseError) : String :=
  match e.found with
  | some text => Text.quoted text
  | none => "end of input"

/-- The wording of an error. An open string literal is not said to be found anywhere. -/
def message (e : ParseError) : String :=
  match e.cause with
  | .unterminatedString => e.cause.text
  | cause => cause.text ++ ", found " ++ e.foundText

end ParseError

end Screenplay
