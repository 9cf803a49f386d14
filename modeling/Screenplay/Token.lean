/-
Tokens: the words, string literals and symbols of a source text, each with its place.
-/
import Screenplay.Text.Lines

namespace Screenplay

/-- The kinds of tokens. The end of the text is a token of its own. -/
inductive TokenKind where
  | word | string | symbol | ending
deriving Repr, DecidableEq, Inhabited

/-- The name of a kind of tokens. -/
def TokenKind.name : TokenKind → String
  | word => "WORD"
  | string => "STRING"
  | symbol => "SYMBOL"
  | ending => "EOF"

/-- A token. -/
structure Token where
  kind : TokenKind
  /-- the text, or for a string literal its content with the escapes resolved -/
  value : String
  /-- the text exactly as it stands in the source -/
  text : String
  /-- the offset of the first character -/
  start : Nat
  /-- the offset after the last character -/
  stop : Nat
  position : Text.Position
deriving Repr, DecidableEq, Inhabited

namespace Token

/-- Whether a token is a given symbol. -/
def isSymbol (t : Token) (symbol : String) : Bool := t.kind = .symbol && t.value == symbol

/-- Whether a token is a given word. -/
def isWord (t : Token) (word : String) : Bool := t.kind = .word && t.value == word

/-- Whether a token is the end of the text. -/
def isEnding (t : Token) : Bool := t.kind = .ending

/-- The end of a text. -/
def endingAt (offset : Nat) (position : Text.Position) : Token :=
  ⟨.ending, "", "", offset, offset, position⟩

end Token

end Screenplay
