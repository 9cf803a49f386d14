/-
State values: null, truth values, numbers, texts, lists and maps with named entries. Their source
form, their display text, their estimated size and the equality that conditions use.
-/
import Screenplay.Decimal.Shortest
import Screenplay.Entries
import Screenplay.Number
import Screenplay.Text.Search

namespace Screenplay

/-- A value that a state variable can hold. -/
inductive Value where
  | null
  | bool (b : Bool)
  | int (n : Int)
  | float (x : Float)
  | text (s : String)
  | list (items : List Value)
  | map (entries : List (String × Value))
deriving Inhabited

namespace Value

/-- The value of a number. -/
def ofNumber : Number → Value
  | .whole n => .int n
  | .fraction x => .float x

/-! ## Texts -/

/-- Floating point numbers are written out in full from `0.0001` to below `10 ^ 16`; other ones have
an exponent of at least two digits. -/
def floatStyle : Decimal.Style := ⟨-3, 16, 2⟩

/-- The text of a truth value. -/
def boolText (b : Bool) : String := if b then "true" else "false"

/-- A text between quotation marks, without escapes. -/
def inQuotes (s : String) : String := "\"" ++ s ++ "\""

mutual

/-- A value the way it appears in source text. -/
def render : Value → String
  | .null => "null"
  | .bool b => boolText b
  | .int n => toString n
  | .float x => Decimal.text floatStyle x
  | .text s => inQuotes s
  | .list items => "[" ++ Text.join ", " (renderItems items) ++ "]"
  | .map entries => "\x7b" ++ Text.join ", " (renderEntries entries) ++ "\x7d"

/-- The source forms of some values. -/
def renderItems : List Value → List String
  | [] => []
  | v :: vs => render v :: renderItems vs

/-- The source forms of the entries of a map. -/
def renderEntries : List (String × Value) → List String
  | [] => []
  | (k, v) :: es => (k ++ ": " ++ render v) :: renderEntries es

end

/-- A value as display text: a text is shown as it is, anything else in its source form. -/
def display : Value → String
  | .text s => s
  | v => render v

/-! ## Size -/

mutual

/-- The estimated cost of a value: one per character of a text, eight per list item and per
scalar. Lists are not looked into. -/
def size : Value → Nat
  | .text s => s.length
  | .list items => items.length * 8
  | .map entries => sizeEntries entries
  | _ => 8

/-- The estimated cost of the entries of a map, their names included. -/
def sizeEntries : List (String × Value) → Nat
  | [] => 0
  | (k, v) :: es => k.length + size v + sizeEntries es

end

/-! ## Equality in conditions -/

/-- A number that a comparison needs as a floating point number is out of range. -/
inductive Overflow where
  | overflow
deriving Repr, DecidableEq

/-- The floating point number of a numeric value. -/
def toFloat? : Value → Option (Except Overflow Float)
  | .int n => some (match floatOfInt? n with | some x => .ok x | none => .error .overflow)
  | .float x => some (.ok x)
  | _ => none

/-- Equality as conditions see it: truth values and texts equal their like, numbers are compared as
floating point numbers, and nothing else is equal. -/
def equal : Value → Value → Except Overflow Bool
  | .bool a, .bool b => .ok (a == b)
  | .text a, .text b => .ok (a == b)
  | a, b =>
    match a.toFloat?, b.toFloat? with
    | some x, some y => do return (← x) == (← y)
    | _, _ => .ok false

/-! ## Maps -/

/-- The entry of a map under a name. -/
def member? : Value → String → Option Value
  | .map entries, name => Entries.get? entries name
  | _, _ => none

end Value

end Screenplay
