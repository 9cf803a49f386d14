/-
UI trees: containers, texts, buttons, images, inputs, lists, conditionals and components. Their
children, their number of nodes, their height and their weight.
-/
import Screenplay.Action
import Screenplay.Total

namespace Screenplay

/-- How a container lays out its children. -/
inductive Layout where
  | column | row | stack
deriving Repr, DecidableEq, Inhabited

namespace Layout

/-- All layouts. -/
def all : List Layout := [column, row, stack]

/-- The keyword of a layout. -/
def name : Layout → String
  | column => "column"
  | row => "row"
  | stack => "stack"

/-- The heading of a layout in an outline. -/
def heading : Layout → String
  | column => "Column"
  | row => "Row"
  | stack => "Stack"

/-- The layout with a keyword. -/
def ofName? (text : String) : Option Layout := all.find? (·.name == text)

end Layout

/-- The role of a text. -/
inductive TextRole where
  | label | title
deriving Repr, DecidableEq, Inhabited

namespace TextRole

/-- The name of a role. -/
def name : TextRole → String
  | label => "label"
  | title => "title"

/-- The heading of a role in an outline. -/
def heading : TextRole → String
  | label => "Label"
  | title => "Title"

/-- The role with a keyword; `text` is another word for a label. -/
def ofKeyword? (word : String) : Option TextRole :=
  if word = "label" ∨ word = "text" then some label else if word = "title" then some title else none

end TextRole

/-- A node of a UI tree. -/
inductive Node where
  | container (layout : Layout) (children : List Node)
  | text (role : TextRole) (content : Expr)
  /-- a button with a navigation, the name of a handler and actions of its own -/
  | button (label : String) (navigation : Option Navigation) (handler : Option String)
      (actions : List Action)
  | image (source : String)
  /-- a text input bound to a state variable -/
  | input (label binding : String)
  /-- a template that is repeated for every item of a state variable -/
  | list (binding : String) (template : Node)
  | conditional (condition : Expr) (thenBranch : Node) (elseBranch : Option Node)
  | component (name : String) (props : List (String × Expr))
deriving Inhabited

namespace Node

/-- The kind of a node. -/
def kind : Node → String
  | .container layout _ => layout.name
  | .text role _ => role.name
  | .button .. => "button"
  | .image _ => "image"
  | .input .. => "input"
  | .list .. => "list"
  | .conditional .. => "if"
  | .component .. => "component"

/-- The direct children of a node in source order. -/
def children : Node → List Node
  | .container _ nodes => nodes
  | .list _ template => [template]
  | .conditional _ thenBranch none => [thenBranch]
  | .conditional _ thenBranch (some elseBranch) => [thenBranch, elseBranch]
  | _ => []

/-- A single node as it is, any other number of nodes in a column. -/
def ofBlock : List Node → Node
  | [node] => node
  | nodes => .container .column nodes

/-! ## Size and height -/

mutual

/-- The number of nodes of a tree. -/
def size : Node → Nat
  | .container _ nodes => 1 + sizeOfAll nodes
  | .list _ template => 1 + size template
  | .conditional _ thenBranch elseBranch => 1 + size thenBranch + sizeOfElse elseBranch
  | _ => 1

/-- The number of nodes of some trees. -/
def sizeOfAll : List Node → Nat
  | [] => 0
  | n :: ns => size n + sizeOfAll ns

/-- The number of nodes of an optional tree. -/
def sizeOfElse : Option Node → Nat
  | none => 0
  | some n => size n

end

theorem size_eq (n : Node) : n.size = 1 + total (n.children.map size) := by
  have all : ∀ ns : List Node, sizeOfAll ns = total (ns.map size) := by
    intro ns
    induction ns with
    | nil => rfl
    | cons n ns ih => simp [sizeOfAll, ih]
  match n with
  | .container .. => simp [size, children, all]
  | .list .. => simp [size, children]
  | .conditional _ _ none => simp [size, children, sizeOfElse]
  | .conditional _ _ (some _) => simp [size, children, sizeOfElse]; omega
  | .text .. | .button .. | .image .. | .input .. | .component .. => simp [size, children]

mutual

/-- The number of levels of a tree; a leaf has one. -/
def height : Node → Nat
  | .container _ nodes => 1 + heightOfAll nodes
  | .list _ template => 1 + height template
  | .conditional _ thenBranch elseBranch => 1 + max (height thenBranch) (heightOfElse elseBranch)
  | _ => 1

/-- The number of levels of some trees side by side. -/
def heightOfAll : List Node → Nat
  | [] => 0
  | n :: ns => max (height n) (heightOfAll ns)

/-- The number of levels of an optional tree. -/
def heightOfElse : Option Node → Nat
  | none => 0
  | some n => height n

end

/-! ## Weight -/

/-- The weight of the properties of a component. -/
def propComplexity (props : List (String × Expr)) : Nat :=
  Expr.totalComplexity (props.map (·.2))

mutual

/-- The weight of a tree. -/
def complexity : Node → Nat
  | .container _ nodes => 1 + totalComplexity nodes
  | .list _ template => 2 + complexity template
  | .conditional condition thenBranch elseBranch =>
    3 + condition.complexity + complexity thenBranch + elseComplexity elseBranch
  | .text _ content => 1 + content.complexity
  | .button _ navigation _ actions =>
    1 + Action.totalComplexity actions + (if navigation.isSome then 1 else 0)
  | .component _ props => 1 + propComplexity props
  | _ => 1

/-- The weight of some trees. -/
def totalComplexity : List Node → Nat
  | [] => 0
  | n :: ns => complexity n + totalComplexity ns

/-- The weight of an optional tree. -/
def elseComplexity : Option Node → Nat
  | none => 0
  | some n => complexity n

end

end Node

end Screenplay
