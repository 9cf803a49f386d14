/-
The checks that a whole program and its screens have to pass, before they are run and while they are
read: names, values, counts, and the size of UI trees.
-/
import Screenplay.Guard
import Screenplay.Program

namespace Screenplay

/-! ## UI trees -/

namespace Node

/-- Counts the nodes of some trees that stand at some depths, on top of those counted already. The
trees are a stack: the children of a node are pushed one after the other, so the last one is counted
first. The first node found too deep ends the count. -/
def countFrom (counted : Nat) : List (Nat × Node) → Except Violation Nat
  | [] => .ok counted
  | (depth, node) :: pending =>
    if maxDepth < depth then .error (.limit "UI nesting depth" depth maxDepth)
    else countFrom (counted + 1) ((node.children.map (depth + 1, ·)).reverse ++ pending)
termination_by pending => total (pending.map (·.2.size))
decreasing_by
  simp only [List.map_append, List.map_reverse, List.map_map, total_append, total_reverse,
    List.map_cons, total_cons, size_eq node]
  have h : ((fun p : Nat × Node => p.2.size) ∘ fun n => (depth + 1, n)) = size := rfl
  rw [h]
  omega

/-- Counts the nodes of a tree, unless it is nested too deeply. -/
def count (ui : Node) : Except Violation Nat := countFrom 0 [(1, ui)]

end Node

namespace Guard

/-- Checks the depth of a UI tree and its number of nodes. -/
def checkTree (guard : Guard) (screen : String) (ui : Node) : Except Violation Unit × Guard :=
  match ui.count with
  | .error violation => (.error violation, guard)
  | .ok count => guard.check [Check.elementCount screen count]

end Guard

/-! ## Programs and screens -/

/-- What state variables have to pass. -/
def StateVar.checksOf (declared : List StateVar) : List Check :=
  declared.flatMap fun v => Check.state v.name v.value

/-- What a program has to pass before it runs, its screens apart. -/
def Program.checks (p : Program) : List Check :=
  Check.appName p.name
    ++ [Check.screenCount p.screens.length, Check.stateCount p.stateCount]
    ++ StateVar.checksOf p.state

/-- What a screen has to pass before it is entered, its UI tree apart. -/
def Screen.checks (s : Screen) : List Check :=
  .text s.name "screen name" :: StateVar.checksOf s.state

/-- Checks a screen with its UI tree. -/
def Guard.checkScreen (guard : Guard) (s : Screen) : Except Violation Unit × Guard :=
  match guard.check s.checks with
  | (.ok (), guard) => guard.checkTree s.name s.ui
  | refused => refused

end Screenplay
