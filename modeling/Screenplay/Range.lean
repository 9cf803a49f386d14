/-
Ranges of whole numbers, written as two numbers with two points between them.
-/
import Screenplay.Number
import Screenplay.Text.Search

namespace Screenplay

/-- A range with both its ends. -/
structure Range where
  low : Int
  high : Int
deriving Repr, DecidableEq

namespace Range

/-- The range that a text writes; its ends may come in either order, with white space around each. -/
def ofText? (text : String) : Option Range :=
  match Text.cutAtPair '.' '.' text.toList with
  | [first, second] =>
    match wholeNumber? (Text.trim first), wholeNumber? (Text.trim second) with
    | some a, some b => some ⟨min a b, max a b⟩
    | _, _ => none
  | _ => none

/-- The number of whole numbers in a range. -/
def length (r : Range) : Int := r.high - r.low + 1

end Range

end Screenplay
