/-
What texts are short of. Writing a text takes places on the call stack, one for every call inside another,
and no whole number in it may have too many digits. There are only so many places, so each measure below is
taken with a room that is left: it tells what runs out first, if anything does.
-/
import Screenplay.Action
import Screenplay.Expr.Evaluation

namespace Screenplay

/-- What runs out while a text is written. -/
inductive Shortage where
  /-- the places on the call stack -/
  | stack
  /-- the digits that a whole number may have -/
  | digits
deriving Repr, DecidableEq

/-- The wording of a shortage. -/
def Shortage.message : Shortage → String
  | stack => "maximum recursion depth exceeded"
  | digits =>
    "Exceeds the limit (4300 digits) for integer string conversion; use sys.set_int_max_str_digits() to increase "
      ++ "the limit"

/-- The wording of a shortage, with what it is. -/
def Shortage.summary : Shortage → String
  | stack => "Internal error: " ++ stack.message
  | digits => "Invalid input: " ++ digits.message

/-- The places that are left on the call stack, at each of some texts that are written one after the other. -/
abbrev Room := Nat → Nat

/-- The room for the texts after the first one. -/
def Room.later (room : Room) : Room := fun i => room (i + 1)

/-- The room that there is as a rule, for every text. -/
def Room.usual : Room := fun _ => 300

/-! ## Values -/

namespace Value

/-- Whether a whole number has more digits than may be written. -/
def isOversized (n : Int) : Bool := Nat.pow 10 maxWholeDigits ≤ n.natAbs

/-- What the text of a whole number is short of. -/
def wholeShortage? (n : Int) : Option Shortage := if isOversized n then some .digits else none

mutual

/-- What the source form of a value is short of. -/
def shortage? : Nat → Value → Option Shortage
  | 0, _ => some .stack
  | _ + 1, .int n => wholeShortage? n
  | room + 1, .list items => itemsShortage? room items
  | room + 1, .map entries => entriesShortage? room entries
  | _ + 1, _ => none

/-- What the source forms of some values are short of. -/
def itemsShortage? (room : Nat) : List Value → Option Shortage
  | [] => none
  | v :: vs => (shortage? room v).or (itemsShortage? room vs)

/-- What the source forms of the entries of a map are short of. -/
def entriesShortage? (room : Nat) : List (String × Value) → Option Shortage
  | [] => none
  | (_, v) :: es => (shortage? room v).or (entriesShortage? room es)

end

/-- What the display text of a value is short of. -/
def displayShortage? (room : Nat) : Value → Option Shortage
  | .text _ => none
  | v => shortage? room v

end Value

/-! ## Expressions -/

namespace Expr

mutual

/-- What the text form of an expression is short of. -/
def shortage? : Nat → Expr → Option Shortage
  | 0, _ => some .stack
  | room + 1, .literal value => value.shortage? room
  | _ + 1, .var _ => none
  | room + 1, .field target _ => shortage? room target
  | room + 1, .not operand => shortage? room operand
  | room + 1, .binary _ left right => (shortage? room left).or (shortage? room right)
  | room + 1, .call _ args => shortageOf? room args
  | room + 1, .interpolation parts => piecesShortage? room parts

/-- What the text forms of some expressions are short of. -/
def shortageOf? (room : Nat) : List Expr → Option Shortage
  | [] => none
  | e :: es => (shortage? room e).or (shortageOf? room es)

/-- What the pieces of an interpolation are short of; literal texts stand there as they are. -/
def piecesShortage? (room : Nat) : List Expr → Option Shortage
  | [] => none
  | .literal (.text _) :: es => piecesShortage? room es
  | e :: es => (shortage? room e).or (piecesShortage? room es)

end

mutual

/-- What the value of an expression is short of. The text of a path is needed where a field is missing, and
that of an operation to tell that it has no value. -/
def valueShortage? (look : String → Option Value) : Nat → Expr → Option Shortage
  | 0, _ => some .stack
  | _ + 1, .literal _ | _ + 1, .var _ => none
  | room + 1, .field target name =>
    (valueShortage? look room target).or <|
      match evaluate look target with
      | .ok value => if (value.member? name).isSome then none else shortage? room (.field target name)
      | .error _ => none
  | room + 1, .interpolation parts => displaysShortage? look room parts
  | room + 1, .not operand => shortage? room (.not operand)
  | room + 1, .binary op left right => shortage? room (.binary op left right)
  | room + 1, .call name args => shortage? room (.call name args)

/-- What the display texts of the values of some expressions are short of, up to the first one without a
value. -/
def displaysShortage? (look : String → Option Value) (room : Nat) : List Expr → Option Shortage
  | [] => none
  | e :: es =>
    (valueShortage? look room e).or <|
      match evaluate look e with
      | .ok value => (value.displayShortage? room).or (displaysShortage? look room es)
      | .error _ => none

end

/-- The value of an expression, in the room that there is for it. -/
def evaluateIn (look : String → Option Value) (room : Nat) (e : Expr) :
    Except Shortage (Except Unsupported Value) :=
  match e.valueShortage? look room with
  | some shortage => .error shortage
  | none => .ok (e.evaluate look)

/-- What the text of an argument is short of. -/
def argumentShortage? (look : String → Option Value) (room : Nat) (e : Expr) : Option Shortage :=
  (e.valueShortage? look room).or <|
    match e.evaluate look with
    | .ok value => value.displayShortage? room
    | .error _ => e.shortage? room

/-- What the first text that cannot be written is short of, among the text forms of some expressions. -/
def firstShortage? (room : Room) : List Expr → Option Shortage
  | [] => none
  | e :: es => (e.shortage? (room 0)).or (firstShortage? room.later es)

end Expr

/-! ## Actions -/

namespace Action

/-- The expressions whose text forms are part of the text of an action. -/
def worded : Action → List Expr
  | .navigate navigation => navigation.args
  | .call _ args => args
  | .branch condition .. => [condition]
  | .update .. | .loop .. | .code _ => []

/-- What the text of an action is short of. -/
def shortage? (room : Nat) (a : Action) : Option Shortage := Expr.shortageOf? room a.worded

end Action

end Screenplay
