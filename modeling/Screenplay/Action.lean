/-
Actions: the behaviour of buttons and named handlers. Statements that are not understood are kept as
raw code. The text form of an action and the weight of a list of actions.
-/
import Screenplay.Expr

namespace Screenplay

/-- A move to another screen. -/
structure Navigation where
  target : String
  args : List Expr
deriving Inhabited

/-- The text form of a navigation. -/
def Navigation.text (n : Navigation) : String :=
  if n.args.isEmpty then "-> " ++ n.target else "-> " ++ Expr.applied n.target n.args

/-- One step of a behaviour. -/
inductive Action where
  | navigate (navigation : Navigation)
  /-- an assignment, with its right-hand side also as written -/
  | update (name : String) (value : Expr) (source : String)
  | call (function : String) (args : List Expr)
  | branch (condition : Expr) (thenActions elseActions : List Action)
  /-- a loop over a range of the form `a..b` -/
  | loop (name range : String) (body : List Action)
  /-- a line that is no statement, as written -/
  | code (text : String)
deriving Inhabited

namespace Action

/-- The text form of an action. Blocks are left out. -/
def text : Action → String
  | .navigate navigation => navigation.text
  | .update name _ source => name ++ " = " ++ source
  | .call function args => Expr.applied function args
  | .branch condition .. => "if " ++ condition.text
  | .loop name range _ => "for " ++ name ++ " in " ++ range
  | .code text => text

mutual

/-- The weight of an action. -/
def complexity : Action → Nat
  | .branch condition thenActions elseActions =>
    2 + condition.complexity + totalComplexity thenActions + totalComplexity elseActions
  | .loop _ _ body => 3 + totalComplexity body
  | _ => 1

/-- The weight of some actions. -/
def totalComplexity : List Action → Nat
  | [] => 0
  | a :: as => complexity a + totalComplexity as

end

end Action

end Screenplay
