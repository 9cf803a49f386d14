/-
Evaluation of expressions against the values of state variables. Only literals, variables, fields and
interpolated texts have a value; operators and calls have none. Conditions are narrower still: a
literal truth value, or an equality with a literal.
-/
import Screenplay.Expr

namespace Screenplay.Expr

/-- An expression that has no value. -/
structure Unsupported where
  expr : Expr

mutual

/-- The value of an expression, where `look` finds the value of a variable. An unknown variable
stands for its own name, a missing field for the text of its path. -/
def evaluate (look : String → Option Value) : Expr → Except Unsupported Value
  | .literal value => .ok value
  | .var name => .ok ((look name).getD (.text name))
  | .field target name => do
    match (← evaluate look target).member? name with
    | some value => return value
    | none => return .text (text (.field target name))
  | .interpolation parts => return .text (Text.join "" (← displays look parts))
  | .not operand => .error ⟨.not operand⟩
  | .binary op left right => .error ⟨.binary op left right⟩
  | .call name args => .error ⟨.call name args⟩

/-- The display texts of the values of some expressions. -/
def displays (look : String → Option Value) : List Expr → Except Unsupported (List String)
  | [] => .ok []
  | e :: es => do
    let value ← evaluate look e
    return value.display :: (← displays look es)

end

/-- The text of an argument: its value displayed, or its own text if it has no value. -/
def argumentText (look : String → Option Value) (e : Expr) : String :=
  match e.evaluate look with
  | .ok value => value.display
  | .error _ => e.text

/-! ## Conditions -/

/-- The value of a side of an equality, if it is a literal or a known variable. -/
def side? (look : String → Option Value) : Expr → Option Value
  | .literal value => some value
  | .var name => look name
  | _ => none

/-- Whether a condition holds. Everything but a literal truth value and an equality of known values,
at least one of them literal, is false. -/
def holds (look : String → Option Value) : Expr → Except Value.Overflow Bool
  | .literal (.bool b) => .ok b
  | .binary .eq (.var _) (.var _) => .ok false
  | .binary .eq left right =>
    match side? look left, side? look right with
    | some a, some b => a.equal b
    | _, _ => .ok false
  | _ => .ok false

end Screenplay.Expr
