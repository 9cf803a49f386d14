/-
Expressions: literals, variables, field access, negation, binary operators, calls and texts with
embedded expressions. Their text form, their depth and their number of composite nodes.
-/
import Screenplay.Value

namespace Screenplay

/-! ## Operators -/

/-- The binary operators. -/
inductive Operator where
  | add | sub | mul | div | mod | eq | ne | lt | gt | le | ge
deriving Repr, DecidableEq, Inhabited

namespace Operator

/-- All operators. -/
def all : List Operator := [add, sub, mul, div, mod, eq, ne, lt, gt, le, ge]

/-- The sign of an operator. -/
def sign : Operator → String
  | add => "+"
  | sub => "-"
  | mul => "*"
  | div => "/"
  | mod => "%"
  | eq => "=="
  | ne => "!="
  | lt => "<"
  | gt => ">"
  | le => "<="
  | ge => ">="

/-- The operator with a sign. -/
def ofSign? (text : String) : Option Operator := all.find? (·.sign == text)

/-- Whether the sign of an operator is a word between blanks, and not a symbol. -/
def isWord : Operator → Bool
  | add | sub | mul | div | mod => true
  | _ => false

theorem ofSign?_sign (op : Operator) : ofSign? op.sign = some op := by
  cases op <;> decide

end Operator

/-! ## Expressions -/

/-- An expression. -/
inductive Expr where
  | literal (value : Value)
  | var (name : String)
  | field (target : Expr) (name : String)
  | not (operand : Expr)
  | binary (op : Operator) (left right : Expr)
  | call (name : String) (args : List Expr)
  /-- a text whose pieces are literals and embedded expressions -/
  | interpolation (parts : List Expr)
deriving Inhabited

namespace Expr

/-- The expression of a dotted path: a variable, and a field of it per further name. -/
def ofPath : List String → Expr
  | [] => .var ""
  | head :: fields => fields.foldl .field (.var head)

/-! ## Text form -/

mutual

/-- The text form of an expression. -/
def text : Expr → String
  | .literal value => value.render
  | .var name => name
  | .field target name => text target ++ "." ++ name
  | .not operand => "!" ++ text operand
  | .binary op left right => "(" ++ text left ++ " " ++ op.sign ++ " " ++ text right ++ ")"
  | .call name args => name ++ "(" ++ Text.join ", " (texts args) ++ ")"
  | .interpolation parts => "\"" ++ Text.join "" (pieces parts) ++ "\""

/-- The text forms of some expressions. -/
def texts : List Expr → List String
  | [] => []
  | e :: es => text e :: texts es

/-- The pieces of an interpolation: literal texts as they are, and anything else embedded. -/
def pieces : List Expr → List String
  | [] => []
  | .literal (.text s) :: es => s :: pieces es
  | e :: es => ("$\x7b" ++ text e ++ "\x7d") :: pieces es

end

/-- A name with a list of arguments. -/
def applied (name : String) (args : List Expr) : String :=
  name ++ "(" ++ Text.join ", " (texts args) ++ ")"

/-! ## Depth -/

mutual

/-- The nesting depth of an expression; a leaf has depth one. -/
def depth : Expr → Nat
  | .literal _ | .var _ => 1
  | .field target _ => 1 + depth target
  | .not operand => 1 + depth operand
  | .binary _ left right => 1 + max (depth left) (depth right)
  | .call _ args => 1 + maxDepthOf args
  | .interpolation parts => 1 + maxDepthOf parts

/-- The largest depth of some expressions. -/
def maxDepthOf : List Expr → Nat
  | [] => 0
  | e :: es => max (depth e) (maxDepthOf es)

end

/-! ## Complexity -/

mutual

/-- The number of composite nodes of an expression. -/
def complexity : Expr → Nat
  | .literal _ | .var _ => 0
  | .field target _ => 1 + complexity target
  | .not operand => 1 + complexity operand
  | .binary _ left right => 1 + complexity left + complexity right
  | .call _ args => 1 + totalComplexity args
  | .interpolation parts => 1 + totalComplexity parts

/-- The number of composite nodes of some expressions. -/
def totalComplexity : List Expr → Nat
  | [] => 0
  | e :: es => complexity e + totalComplexity es

end

/-! ## Nodes -/

mutual

/-- The nodes of an expression that stands at some depth, from the outside in and from left to
right, each with its own depth. -/
def nodes (depth : Nat) : Expr → List (Nat × Expr)
  | .literal value => [(depth, .literal value)]
  | .var name => [(depth, .var name)]
  | .field target name => (depth, .field target name) :: nodes (depth + 1) target
  | .not operand => (depth, .not operand) :: nodes (depth + 1) operand
  | .binary op left right =>
    (depth, .binary op left right) :: nodes (depth + 1) left ++ nodes (depth + 1) right
  | .call name args => (depth, .call name args) :: nodesOf (depth + 1) args
  | .interpolation parts => (depth, .interpolation parts) :: nodesOf (depth + 1) parts

/-- The nodes of some expressions at one depth. -/
def nodesOf (depth : Nat) : List Expr → List (Nat × Expr)
  | [] => []
  | e :: es => nodes depth e ++ nodesOf depth es

end

end Expr

end Screenplay
