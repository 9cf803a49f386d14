/-
The outline of a program: an indented tree of everything declared in it, one line each. It can be written
if there is room for every value and expression that it shows.
-/
import Screenplay.Program
import Screenplay.Shortage
import Screenplay.Text.Quoted

namespace Screenplay

/-- A line of an outline: how far it is indented, and its text. -/
structure OutlineLine where
  depth : Nat
  text : String
deriving Repr, DecidableEq

/-- A line with its indentation, two blanks per level. -/
def OutlineLine.indented (line : OutlineLine) : String :=
  String.ofList (List.replicate (2 * line.depth) ' ') ++ line.text

/-! ## Declarations -/

/-- The line of a state variable. -/
def StateVar.outline (depth : Nat) (v : StateVar) : OutlineLine :=
  ⟨depth, s!"State {v.name} = {v.value.render}"⟩

/-- The text of a field of a data model; a field without a default shows none. -/
def DataField.outlineText (f : DataField) : String :=
  match f.default with
  | .null => s!"{f.name}: {f.typeName}"
  | default => s!"{f.name}: {f.typeName} = {default.render}"

/-- The lines of a data model. -/
def DataModel.outline (m : DataModel) : List OutlineLine :=
  ⟨1, s!"Data {m.name}"⟩ :: m.fields.map fun f => ⟨2, f.outlineText⟩

/-! ## Actions -/

namespace Action

mutual

/-- The lines of an action. -/
def outline (depth : Nat) : Action → List OutlineLine
  | .branch condition thenActions elseActions =>
    ⟨depth, s!"If {condition.text}"⟩ :: outlineOf (depth + 1) thenActions
      ++ (if elseActions.isEmpty then [] else [⟨depth, "Else"⟩])
      ++ outlineOf (depth + 1) elseActions
  | .loop name range body => ⟨depth, s!"For {name} in {range}"⟩ :: outlineOf (depth + 1) body
  | .code text => [⟨depth, s!"Code {Text.quoted text}"⟩]
  | .navigate navigation => [⟨depth, navigation.text⟩]
  | .update name value source => [⟨depth, text (.update name value source)⟩]
  | .call function args => [⟨depth, Expr.applied function args⟩]

/-- The lines of some actions. -/
def outlineOf (depth : Nat) : List Action → List OutlineLine
  | [] => []
  | a :: as => outline depth a ++ outlineOf depth as

end

end Action

/-! ## UI trees -/

/-- What a button does besides its own actions: its navigation, and its handler if that has a
name. -/
def buttonSuffix (navigation : Option Navigation) (handler : Option String) : String :=
  (match navigation with
    | some n => " " ++ n.text
    | none => "")
    ++ match handler with
      | none | some "" => ""
      | some name => " action " ++ name

/-- The properties of a component. -/
def propsText (props : List (String × Expr)) : String :=
  Text.join ", " (props.map fun p => p.1 ++ ": " ++ p.2.text)

namespace Node

mutual

/-- The lines of a UI tree. -/
def outline (depth : Nat) : Node → List OutlineLine
  | .container layout nodes => ⟨depth, layout.heading⟩ :: outlineOf (depth + 1) nodes
  | .text role content => [⟨depth, s!"{role.heading} {content.text}"⟩]
  | .button label navigation handler actions =>
    ⟨depth, s!"Button \"{label}\"" ++ buttonSuffix navigation handler⟩
      :: Action.outlineOf (depth + 1) actions
  | .image source => [⟨depth, s!"Image \"{source}\""⟩]
  | .input label binding => [⟨depth, s!"Input \"{label}\" -> {binding}"⟩]
  | .list binding template => ⟨depth, s!"List {binding}"⟩ :: outline (depth + 1) template
  | .conditional condition thenBranch elseBranch =>
    ⟨depth, s!"If {condition.text}"⟩ :: outline (depth + 1) thenBranch
      ++ outlineOfElse depth elseBranch
  | .component name props => [⟨depth, s!"Component {name} \x7b{propsText props}\x7d"⟩]

/-- The lines of some UI trees. -/
def outlineOf (depth : Nat) : List Node → List OutlineLine
  | [] => []
  | n :: ns => outline depth n ++ outlineOf depth ns

/-- The lines of an optional branch, under a heading of its own. -/
def outlineOfElse (depth : Nat) : Option Node → List OutlineLine
  | none => []
  | some n => ⟨depth, "Else"⟩ :: outline (depth + 1) n

end

end Node

/-! ## Screens and programs -/

/-- The lines of a screen. -/
def Screen.outline (s : Screen) : List OutlineLine :=
  let params := Text.join ", " (s.params.map fun p => s!"{p.name}: {p.typeName}")
  ⟨1, s!"Screen {s.name}({params})"⟩ :: s.state.map (StateVar.outline 2)
    ++ s.ui.outline 2
    ++ s.handlers.flatMap fun h => ⟨2, s!"Action {h.name}"⟩ :: Action.outlineOf 3 h.body

namespace Program

/-- The lines of a program. -/
def outlineLines (p : Program) : List OutlineLine :=
  ⟨0, s!"App \"{p.name}\" (start: {p.start})"⟩
    :: p.imports.map (fun path => ⟨1, s!"Import {path}"⟩)
    ++ p.models.flatMap DataModel.outline
    ++ p.state.map (StateVar.outline 1)
    ++ p.screens.flatMap Screen.outline

/-- The outline of a program as one text. -/
def outline (p : Program) : String := Text.join "\n" (p.outlineLines.map OutlineLine.indented)

end Program

/-! ## What an outline shows -/

/-- The default that the outline of a field shows. -/
def DataField.shown (f : DataField) : List Expr :=
  match f.default with
  | .null => []
  | default => [.literal default]

namespace Action

mutual

/-- The expressions that the outline of an action shows, in order. -/
def shown : Action → List Expr
  | .branch condition thenActions elseActions => condition :: shownOf thenActions ++ shownOf elseActions
  | .loop _ _ body => shownOf body
  | .navigate navigation => navigation.args
  | .call _ args => args
  | .update .. | .code _ => []

/-- The expressions that the outline of some actions shows. -/
def shownOf : List Action → List Expr
  | [] => []
  | a :: as => shown a ++ shownOf as

end

end Action

namespace Node

mutual

/-- The expressions that the outline of a UI tree shows, in order. -/
def shown : Node → List Expr
  | .container _ nodes => shownOf nodes
  | .text _ content => [content]
  | .button _ navigation _ actions => (navigation.map (·.args)).getD [] ++ Action.shownOf actions
  | .image _ | .input .. => []
  | .list _ template => shown template
  | .conditional condition thenBranch elseBranch =>
    condition :: shown thenBranch ++ shownOfElse elseBranch
  | .component _ props => props.map (·.2)

/-- The expressions that the outline of some UI trees shows. -/
def shownOf : List Node → List Expr
  | [] => []
  | n :: ns => shown n ++ shownOf ns

/-- The expressions that the outline of an optional branch shows. -/
def shownOfElse : Option Node → List Expr
  | none => []
  | some n => shown n

end

end Node

/-- The expressions that the outline of a screen shows. -/
def Screen.shown (s : Screen) : List Expr :=
  s.state.map (.literal ·.value) ++ s.ui.shown ++ s.handlers.flatMap (Action.shownOf ·.body)

namespace Program

/-- The values and expressions that the outline of a program shows, in order. -/
def shown (p : Program) : List Expr :=
  p.models.flatMap (·.fields.flatMap DataField.shown) ++ p.state.map (.literal ·.value)
    ++ p.screens.flatMap Screen.shown

/-- The outline of a program, in the room that there is for what it shows. -/
def outlineIn (room : Room) (p : Program) : Except Shortage String :=
  match Expr.firstShortage? room p.shown with
  | some shortage => .error shortage
  | none => .ok p.outline

end Program

end Screenplay
