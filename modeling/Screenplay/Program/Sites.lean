/-
Sites: the places of a screen at which something can be wrong, in source order. A site is a UI node,
the name of a handler at a button, a property of a component, a block of actions, an action or a node
of an expression. Everything that judges a program is said of its sites.
-/
import Screenplay.Program

namespace Screenplay

/-- A place in a screen. -/
inductive Site where
  /-- a UI node at some depth of the tree, whose root has depth one -/
  | node (depth : Nat) (node : Node)
  /-- the handler that a button names -/
  | handler (name : String)
  /-- a property of a component -/
  | property (component key : String)
  /-- a block of actions at some depth of nesting, under a UI node at some depth; under depth zero,
  the block of a handler -/
  | block (under depth : Nat)
  | action (action : Action)
  /-- a node of an expression at some depth, whose root has depth one -/
  | expr (depth : Nat) (expr : Expr)
deriving Inhabited

/-! ## Expressions -/

/-- The sites of an expression that stands alone. -/
def Expr.sites (e : Expr) : List Site := (e.nodes 1).map fun n => .expr n.1 n.2

/-- The sites of some expressions. -/
def Expr.sitesOf (es : List Expr) : List Site := es.flatMap Expr.sites

/-! ## Actions -/

/-- The sites of a navigation. -/
def Navigation.sites (n : Navigation) : List Site :=
  .action (.navigate n) :: Expr.sitesOf n.args

namespace Action

mutual

/-- The sites of an action in a block. -/
def sites (under depth : Nat) : Action → List Site
  | .navigate navigation => navigation.sites
  | .update name value source => .action (.update name value source) :: value.sites
  | .call function args => .action (.call function args) :: Expr.sitesOf args
  | .branch condition thenActions elseActions =>
    .action (.branch condition thenActions elseActions) :: condition.sites
      ++ .block under (depth + 1) :: sitesOf under (depth + 1) thenActions
      ++ .block under (depth + 1) :: sitesOf under (depth + 1) elseActions
  | .loop name range body =>
    .action (.loop name range body) :: .block under (depth + 1) :: sitesOf under (depth + 1) body
  | .code text => [.action (.code text)]

/-- The sites of the actions of a block. -/
def sitesOf (under depth : Nat) : List Action → List Site
  | [] => []
  | a :: as => sites under depth a ++ sitesOf under depth as

end

/-- The sites of a block of actions, the block itself first. -/
def blockSites (under depth : Nat) (actions : List Action) : List Site :=
  .block under depth :: sitesOf under depth actions

end Action

/-! ## UI trees -/

/-- The sites of the properties of a component. -/
def propSites (component : String) (props : List (String × Expr)) : List Site :=
  props.flatMap fun p => .property component p.1 :: p.2.sites

namespace Node

mutual

/-- The sites of a UI tree at some depth. -/
def sites (depth : Nat) : Node → List Site
  | .container layout nodes => .node depth (.container layout nodes) :: sitesOf (depth + 1) nodes
  | .text role content => .node depth (.text role content) :: content.sites
  | .button label navigation handler actions =>
    .node depth (.button label navigation handler actions)
      :: navigation.toList.flatMap Navigation.sites ++ handler.toList.map .handler
      ++ Action.blockSites depth 1 actions
  | .image source => [.node depth (.image source)]
  | .input label binding => [.node depth (.input label binding)]
  | .list binding template => .node depth (.list binding template) :: sites (depth + 1) template
  | .conditional condition thenBranch elseBranch =>
    .node depth (.conditional condition thenBranch elseBranch) :: condition.sites
      ++ sites (depth + 1) thenBranch ++ sitesOfElse (depth + 1) elseBranch
  | .component name props => .node depth (.component name props) :: propSites name props

/-- The sites of some UI trees at one depth. -/
def sitesOf (depth : Nat) : List Node → List Site
  | [] => []
  | n :: ns => sites depth n ++ sitesOf depth ns

/-- The sites of an optional UI tree. -/
def sitesOfElse (depth : Nat) : Option Node → List Site
  | none => []
  | some n => sites depth n

end

end Node

/-! ## Screens -/

/-- The sites of a handler. -/
def Handler.sites (h : Handler) : List Site := Action.blockSites 0 1 h.body

/-- The sites of a screen: those of its UI tree, and those of its handlers. -/
def Screen.sites (s : Screen) : List Site := s.ui.sites 1 ++ s.handlers.flatMap Handler.sites

end Screenplay
