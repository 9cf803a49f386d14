/-
Programs as JSON documents: every declaration, node, action, expression and value with all its
fields, the variants told apart by their kind.
-/
import Screenplay.Json
import Screenplay.Program

namespace Screenplay

/-- A document of a kind, with further fields. -/
def Json.ofKind (kind : String) (fields : List (String × Json)) : Json :=
  .object (("kind", .text kind) :: fields)

/-! ## Expressions -/

namespace Expr

mutual

/-- An expression as a document. -/
def document : Expr → Json
  | .literal value => .ofKind "literal" [("value", .ofValue value)]
  | .var name => .ofKind "var" [("name", .text name)]
  | .field target name => .ofKind "field" [("target", document target), ("field", .text name)]
  | .not operand => .ofKind "unary" [("op", .text "!"), ("operand", document operand)]
  | .binary op left right =>
    .ofKind "binary" [("op", .text op.sign), ("left", document left), ("right", document right)]
  | .call name args => .ofKind "call" [("name", .text name), ("args", .list (documents args))]
  | .interpolation parts => .ofKind "interpolation" [("parts", .list (documents parts))]

/-- Some expressions as documents. -/
def documents : List Expr → List Json
  | [] => []
  | e :: es => document e :: documents es

end

end Expr

/-! ## Actions -/

/-- A navigation as a document. -/
def Navigation.document (n : Navigation) : Json :=
  .ofKind "navigate" [("target", .text n.target), ("args", .list (Expr.documents n.args))]

namespace Action

mutual

/-- An action as a document. -/
def document : Action → Json
  | .navigate navigation => navigation.document
  | .update name value source =>
    .ofKind "update"
      [("variable", .text name), ("value", value.document), ("source", .text source)]
  | .call function args =>
    .ofKind "call" [("function", .text function), ("args", .list (Expr.documents args))]
  | .branch condition thenActions elseActions =>
    .ofKind "if" [("condition", condition.document),
      ("then_actions", .list (documents thenActions)),
      ("else_actions", .list (documents elseActions))]
  | .loop name range body =>
    .ofKind "loop"
      [("variable", .text name), ("range", .text range), ("body", .list (documents body))]
  | .code text => .ofKind "code" [("code", .text text)]

/-- Some actions as documents. -/
def documents : List Action → List Json
  | [] => []
  | a :: as => document a :: documents as

end

end Action

/-! ## UI trees -/

namespace Node

mutual

/-- A UI tree as a document. -/
def document : Node → Json
  | .container layout nodes => .ofKind layout.name [("children", .list (documents nodes))]
  | .text role content => .ofKind role.name [("text", content.document)]
  | .button label navigation handler actions =>
    .ofKind "button" [("label", .text label),
      ("navigate", (navigation.map Navigation.document).getD .null),
      ("action_ref", .ofText? handler), ("actions", .list (Action.documents actions))]
  | .image source => .ofKind "image" [("src", .text source)]
  | .input label binding => .ofKind "input" [("label", .text label), ("binding", .text binding)]
  | .list binding template =>
    .ofKind "list" [("binding", .text binding), ("template", document template)]
  | .conditional condition thenBranch elseBranch =>
    .ofKind "if" [("condition", condition.document), ("then_branch", document thenBranch),
      ("else_branch", documentOfElse elseBranch)]
  | .component name props =>
    .ofKind "component"
      [("name", .text name), ("props", .object (props.map fun p => (p.1, p.2.document)))]

/-- Some UI trees as documents. -/
def documents : List Node → List Json
  | [] => []
  | n :: ns => document n :: documents ns

/-- An optional UI tree as a document. -/
def documentOfElse : Option Node → Json
  | none => .null
  | some n => document n

end

end Node

/-! ## Declarations -/

/-- A state variable as a document. -/
def StateVar.document (v : StateVar) : Json :=
  .object [("name", .text v.name), ("value", .ofValue v.value)]

/-- A screen as a document. -/
def Screen.document (s : Screen) : Json :=
  .object [("name", .text s.name),
    ("params", .list (s.params.map fun p =>
      .object [("name", .text p.name), ("type_name", .text p.typeName)])),
    ("state", .list (s.state.map StateVar.document)),
    ("ui", s.ui.document),
    ("actions", .list (s.handlers.map fun h =>
      .object [("name", .text h.name), ("body", .list (Action.documents h.body))]))]

/-- A data model as a document. -/
def DataModel.document (m : DataModel) : Json :=
  .object [("name", .text m.name),
    ("fields", .list (m.fields.map fun f =>
      .object [("name", .text f.name), ("type_name", .text f.typeName),
        ("default", .ofValue f.default)]))]

/-- A program as a document. -/
def Program.document (p : Program) : Json :=
  .object [("name", .text p.name), ("start_screen", .text p.start),
    ("screens", .list (p.screens.map Screen.document)),
    ("state", .list (p.state.map StateVar.document)),
    ("imports", .list (p.imports.map fun path => .object [("path", .text path)])),
    ("data_models", .list (p.models.map DataModel.document))]

end Screenplay
