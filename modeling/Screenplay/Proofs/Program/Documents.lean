/-
Programs read back from their documents: the document of a value, an expression, an action, a node or a
program tells it, up to the order of the entries in maps and in the properties of components. So does the
text of an artifact.
-/
import Screenplay.Artifact
import Screenplay.Proofs.Json.Sorted

namespace Screenplay

/-! ## Values -/

namespace Value

mutual

/-- A value with the entries of its maps in the order of their names. -/
def sorted : Value → Value
  | .null => .null
  | .bool b => .bool b
  | .int n => .int n
  | .float x => .float x
  | .text s => .text s
  | .list items => .list (sortedItems items)
  | .map entries => .map (Json.sortEntries (sortedEntries entries))

/-- Some values, each sorted. -/
def sortedItems : List Value → List Value
  | [] => []
  | v :: vs => sorted v :: sortedItems vs

/-- Entries as they are, with sorted values. -/
def sortedEntries : List (String × Value) → List (String × Value)
  | [] => []
  | (k, v) :: es => (k, sorted v) :: sortedEntries es

end

end Value

namespace Json

theorem ofEntries_eq (es : List (String × Value)) : ofEntries es = mapEntries ofValue es := by
  induction es with
  | nil => rfl
  | cons e es ih =>
    rw [ofEntries, ih]
    rfl

mutual

/-- The sorted document of a value is the document of the sorted value. -/
theorem sorted_ofValue : ∀ v, (ofValue v).sorted = ofValue v.sorted
  | .null | .bool _ | .int _ | .float _ | .text _ => rfl
  | .list items => by
    rw [ofValue, sorted, sortedItems_ofValues items]
    rfl
  | .map entries => by
    have moved := sortEntries_map ofValue (Value.sortedEntries entries)
    rw [ofValue, sorted, sortedEntries_ofEntries entries, ofEntries_eq, moved, ← ofEntries_eq]
    rfl

theorem sortedItems_ofValues : ∀ vs, sortedItems (ofValues vs) = ofValues (Value.sortedItems vs)
  | [] => rfl
  | v :: vs => by
    rw [ofValues, sortedItems, sorted_ofValue v, sortedItems_ofValues vs]
    rfl

theorem sortedEntries_ofEntries : ∀ es, sortedEntries (ofEntries es) = ofEntries (Value.sortedEntries es)
  | [] => rfl
  | (k, v) :: es => by
    rw [ofEntries, sortedEntries, sorted_ofValue v, sortedEntries_ofEntries es]
    rfl

end

mutual

/-- Different values have different documents. -/
theorem ofValue_inj : ∀ v w, ofValue v = ofValue w → v = w
  | .null, w, h => by
    cases w with
    | null => rfl
    | _ => cases h
  | .bool _, w, h => by
    cases w with
    | bool => cases h; rfl
    | _ => cases h
  | .int _, w, h => by
    cases w with
    | int => cases h; rfl
    | _ => cases h
  | .float _, w, h => by
    cases w with
    | float => cases h; rfl
    | _ => cases h
  | .text _, w, h => by
    cases w with
    | text => cases h; rfl
    | _ => cases h
  | .list items, w, h => by
    cases w with
    | list items' => rw [ofValues_inj items items' (Json.list.inj h)]
    | _ => cases h
  | .map entries, w, h => by
    cases w with
    | map entries' => rw [ofEntries_inj entries entries' (Json.object.inj h)]
    | _ => cases h

theorem ofValues_inj : ∀ vs ws, ofValues vs = ofValues ws → vs = ws
  | [], [], _ => rfl
  | [], _ :: _, h => nomatch h
  | _ :: _, [], h => nomatch h
  | v :: vs, w :: ws, h => by
    obtain ⟨first, later⟩ := List.cons_eq_cons.mp h
    rw [ofValue_inj v w first, ofValues_inj vs ws later]

theorem ofEntries_inj : ∀ es fs, ofEntries es = ofEntries fs → es = fs
  | [], [], _ => rfl
  | [], _ :: _, h => nomatch h
  | _ :: _, [], h => nomatch h
  | (k, v) :: es, (k', w) :: fs, h => by
    obtain ⟨first, later⟩ := List.cons_eq_cons.mp h
    obtain ⟨key, value⟩ := Prod.mk.inj first
    rw [key, ofValue_inj v w value, ofEntries_inj es fs later]

end

end Json

namespace Value

/-- The document of a value tells it. -/
theorem sorted_eq {v w : Value} (h : (Json.ofValue v).sorted = (Json.ofValue w).sorted) :
    v.sorted = w.sorted := by
  rw [Json.sorted_ofValue, Json.sorted_ofValue] at h
  exact Json.ofValue_inj _ _ h

/-- The document of a value does not tell the order of the entries in its maps. -/
theorem document_sorted (v : Value) : (Json.ofValue v.sorted).sorted = (Json.ofValue v).sorted := by
  rw [← Json.sorted_ofValue, Json.sorted_sorted]

theorem names_sortedEntries (es : List (String × Value)) : (sortedEntries es).map (·.1) = es.map (·.1) := by
  induction es with
  | nil => rfl
  | cons e es ih => rw [sortedEntries, List.map_cons, List.map_cons, ih]

/-- Two maps are equal when sorted exactly if their entries, with sorted values, are the same up to their
order. -/
theorem sorted_map_iff {es fs : List (String × Value)} (distinct : (es.map (·.1)).Nodup) :
    (Value.map es).sorted = (Value.map fs).sorted ↔ (sortedEntries es).Perm (sortedEntries fs) := by
  rw [sorted, sorted, Value.map.injEq, Json.sortEntries_eq_iff]
  rwa [names_sortedEntries]

end Value

/-! ## Kinds and fields -/

/-- Documents of kinds are of the same kind if they are equal up to order. -/
theorem Json.kind_eq {kind kind' : String} {fields fields' : List (String × Json)}
    (h : (ofKind kind fields).sorted = (ofKind kind' fields').sorted) : kind = kind' :=
  text_eq (field_eq h "kind" rfl rfl)

/-- Lists that agree under one function agree under any coarser one. -/
theorem map_eq_of_map_eq {α β γ : Type} {f : α → β} {g : α → γ} (coarser : ∀ a b, f a = f b → g a = g b)
    {as bs : List α} (h : as.map f = bs.map f) : as.map g = bs.map g := by
  induction as generalizing bs with
  | nil =>
    cases bs with
    | nil => rfl
    | cons b bs => cases h
  | cons a as ih =>
    cases bs with
    | nil => cases h
    | cons b bs =>
      obtain ⟨first, later⟩ := List.cons_eq_cons.mp h
      rw [List.map_cons, List.map_cons, coarser a b first, ih later]

/-! ## Expressions -/

namespace Expr

mutual

/-- An expression with the entries of all maps in it in the order of their names. -/
def sorted : Expr → Expr
  | .literal value => .literal value.sorted
  | .var name => .var name
  | .field target name => .field (sorted target) name
  | .not operand => .not (sorted operand)
  | .binary op left right => .binary op (sorted left) (sorted right)
  | .call name args => .call name (sortedAll args)
  | .interpolation parts => .interpolation (sortedAll parts)

/-- Some expressions, each sorted. -/
def sortedAll : List Expr → List Expr
  | [] => []
  | e :: es => sorted e :: sortedAll es

end

theorem sign_inj {op op' : Operator} (h : op.sign = op'.sign) : op = op' := by
  have same := congrArg Operator.ofSign? h
  rw [Operator.ofSign?_sign, Operator.ofSign?_sign] at same
  exact Option.some.inj same

mutual

/-- The document of an expression tells it. -/
theorem sorted_eq : ∀ a b : Expr, a.document.sorted = b.document.sorted → a.sorted = b.sorted
  | .literal value, b, h => by
    -- in every case, an expression of another constructor has another kind
    cases b with
    | literal value' =>
      have hv := Value.sorted_eq (Json.field_eq h "value" rfl rfl)
      rw [sorted, sorted, hv]
    | _ => exact absurd (Json.kind_eq h) (by decide)
  | .var name, b, h => by
    cases b with
    | var name' =>
      have hn := Json.text_eq (Json.field_eq h "name" rfl rfl)
      rw [hn]
    | _ => exact absurd (Json.kind_eq h) (by decide)
  | .field target name, b, h => by
    cases b with
    | field target' name' =>
      have ht := sorted_eq target target' (Json.field_eq h "target" rfl rfl)
      have hn := Json.text_eq (Json.field_eq h "field" rfl rfl)
      rw [sorted, sorted, ht, hn]
    | _ => exact absurd (Json.kind_eq h) (by decide)
  | .not operand, b, h => by
    cases b with
    | not operand' =>
      have ho := sorted_eq operand operand' (Json.field_eq h "operand" rfl rfl)
      rw [sorted, sorted, ho]
    | _ => exact absurd (Json.kind_eq h) (by decide)
  | .binary op left right, b, h => by
    cases b with
    | binary op' left' right' =>
      have ho := sign_inj (Json.text_eq (Json.field_eq h "op" rfl rfl))
      have hl := sorted_eq left left' (Json.field_eq h "left" rfl rfl)
      have hr := sorted_eq right right' (Json.field_eq h "right" rfl rfl)
      rw [sorted, sorted, ho, hl, hr]
    | _ => exact absurd (Json.kind_eq h) (by decide)
  | .call name args, b, h => by
    cases b with
    | call name' args' =>
      have hn := Json.text_eq (Json.field_eq h "name" rfl rfl)
      have ha := sortedAll_eq args args' (Json.items_eq (Json.field_eq h "args" rfl rfl))
      rw [sorted, sorted, hn, ha]
    | _ => exact absurd (Json.kind_eq h) (by decide)
  | .interpolation parts, b, h => by
    cases b with
    | interpolation parts' =>
      have hp := sortedAll_eq parts parts' (Json.items_eq (Json.field_eq h "parts" rfl rfl))
      rw [sorted, sorted, hp]
    | _ => exact absurd (Json.kind_eq h) (by decide)

theorem sortedAll_eq : ∀ as bs : List Expr,
    (documents as).map Json.sorted = (documents bs).map Json.sorted → sortedAll as = sortedAll bs
  | [], [], _ => rfl
  | [], _ :: _, h => nomatch h
  | _ :: _, [], h => nomatch h
  | a :: as, b :: bs, h => by
    obtain ⟨first, later⟩ := List.cons_eq_cons.mp h
    rw [sortedAll, sortedAll, sorted_eq a b first, sortedAll_eq as bs later]

end

mutual

/-- The document of an expression does not tell the order of the entries in its maps. -/
theorem document_sorted : ∀ e : Expr, e.sorted.document.sorted = e.document.sorted
  | .literal value => by
    simp only [sorted, document, Json.ofKind, Json.sorted, Json.sortedEntries, value.document_sorted]
  | .var _ => rfl
  | .field target _ => by
    simp only [sorted, document, Json.ofKind, Json.sorted, Json.sortedEntries, document_sorted target]
  | .not operand => by
    simp only [sorted, document, Json.ofKind, Json.sorted, Json.sortedEntries, document_sorted operand]
  | .binary _ left right => by
    simp only [sorted, document, Json.ofKind, Json.sorted, Json.sortedEntries, document_sorted left,
      document_sorted right]
  | .call _ args => by
    simp only [sorted, document, Json.ofKind, Json.sorted, Json.sortedEntries, documents_sortedAll args]
  | .interpolation parts => by
    simp only [sorted, document, Json.ofKind, Json.sorted, Json.sortedEntries, documents_sortedAll parts]

theorem documents_sortedAll :
    ∀ es : List Expr, Json.sortedItems (documents (sortedAll es)) = Json.sortedItems (documents es)
  | [] => rfl
  | e :: es => by
    simp only [sortedAll, documents, Json.sortedItems, document_sorted e, documents_sortedAll es]

end

end Expr

/-! ## Actions -/

/-- A navigation with the entries of all maps in it in the order of their names. -/
def Navigation.sorted (n : Navigation) : Navigation := ⟨n.target, Expr.sortedAll n.args⟩

theorem Navigation.sorted_eq {n m : Navigation} (h : n.document.sorted = m.document.sorted) :
    n.sorted = m.sorted := by
  have ht := Json.text_eq (Json.field_eq h "target" rfl rfl)
  have ha := Expr.sortedAll_eq n.args m.args (Json.items_eq (Json.field_eq h "args" rfl rfl))
  rw [sorted, sorted, ht, ha]

theorem Navigation.document_sorted (n : Navigation) : n.sorted.document.sorted = n.document.sorted := by
  simp only [sorted, document, Json.ofKind, Json.sorted, Json.sortedEntries, Expr.documents_sortedAll n.args]

namespace Action

mutual

/-- An action with the entries of all maps in it in the order of their names. -/
def sorted : Action → Action
  | .navigate navigation => .navigate navigation.sorted
  | .update name value source => .update name value.sorted source
  | .call function args => .call function (Expr.sortedAll args)
  | .branch condition thenActions elseActions =>
    .branch condition.sorted (sortedAll thenActions) (sortedAll elseActions)
  | .loop name range body => .loop name range (sortedAll body)
  | .code text => .code text

/-- Some actions, each sorted. -/
def sortedAll : List Action → List Action
  | [] => []
  | a :: as => sorted a :: sortedAll as

end

mutual

/-- The document of an action tells it. -/
theorem sorted_eq : ∀ a b : Action, a.document.sorted = b.document.sorted → a.sorted = b.sorted
  | .navigate navigation, b, h => by
    cases b with
    | navigate navigation' =>
      have hn : navigation.sorted = navigation'.sorted := Navigation.sorted_eq h
      rw [sorted, sorted, hn]
    | _ => exact absurd (Json.kind_eq h) (by decide)
  | .update name value source, b, h => by
    cases b with
    | update name' value' source' =>
      have hn := Json.text_eq (Json.field_eq h "variable" rfl rfl)
      have hv := Expr.sorted_eq value value' (Json.field_eq h "value" rfl rfl)
      have hs := Json.text_eq (Json.field_eq h "source" rfl rfl)
      rw [sorted, sorted, hn, hv, hs]
    | _ => exact absurd (Json.kind_eq h) (by decide)
  | .call function args, b, h => by
    cases b with
    | call function' args' =>
      have hf := Json.text_eq (Json.field_eq h "function" rfl rfl)
      have ha := Expr.sortedAll_eq args args' (Json.items_eq (Json.field_eq h "args" rfl rfl))
      rw [sorted, sorted, hf, ha]
    | _ => exact absurd (Json.kind_eq h) (by decide)
  | .branch condition thenActions elseActions, b, h => by
    cases b with
    | branch condition' thenActions' elseActions' =>
      have hc := Expr.sorted_eq condition condition' (Json.field_eq h "condition" rfl rfl)
      have ht := sortedAll_eq thenActions thenActions'
        (Json.items_eq (Json.field_eq h "then_actions" rfl rfl))
      have he := sortedAll_eq elseActions elseActions'
        (Json.items_eq (Json.field_eq h "else_actions" rfl rfl))
      rw [sorted, sorted, hc, ht, he]
    | _ => exact absurd (Json.kind_eq h) (by decide)
  | .loop name range body, b, h => by
    cases b with
    | loop name' range' body' =>
      have hn := Json.text_eq (Json.field_eq h "variable" rfl rfl)
      have hr := Json.text_eq (Json.field_eq h "range" rfl rfl)
      have hb := sortedAll_eq body body' (Json.items_eq (Json.field_eq h "body" rfl rfl))
      rw [sorted, sorted, hn, hr, hb]
    | _ => exact absurd (Json.kind_eq h) (by decide)
  | .code text, b, h => by
    cases b with
    | code text' =>
      have ht := Json.text_eq (Json.field_eq h "code" rfl rfl)
      rw [ht]
    | _ => exact absurd (Json.kind_eq h) (by decide)

theorem sortedAll_eq : ∀ as bs : List Action,
    (documents as).map Json.sorted = (documents bs).map Json.sorted → sortedAll as = sortedAll bs
  | [], [], _ => rfl
  | [], _ :: _, h => nomatch h
  | _ :: _, [], h => nomatch h
  | a :: as, b :: bs, h => by
    obtain ⟨first, later⟩ := List.cons_eq_cons.mp h
    rw [sortedAll, sortedAll, sorted_eq a b first, sortedAll_eq as bs later]

end

mutual

/-- The document of an action does not tell the order of the entries in its maps. -/
theorem document_sorted : ∀ a : Action, a.sorted.document.sorted = a.document.sorted
  | .navigate navigation => navigation.document_sorted
  | .update _ value _ => by
    simp only [sorted, document, Json.ofKind, Json.sorted, Json.sortedEntries, value.document_sorted]
  | .call _ args => by
    simp only [sorted, document, Json.ofKind, Json.sorted, Json.sortedEntries,
      Expr.documents_sortedAll args]
  | .branch condition thenActions elseActions => by
    simp only [sorted, document, Json.ofKind, Json.sorted, Json.sortedEntries, condition.document_sorted,
      documents_sortedAll thenActions, documents_sortedAll elseActions]
  | .loop _ _ body => by
    simp only [sorted, document, Json.ofKind, Json.sorted, Json.sortedEntries, documents_sortedAll body]
  | .code _ => rfl

theorem documents_sortedAll :
    ∀ as : List Action, Json.sortedItems (documents (sortedAll as)) = Json.sortedItems (documents as)
  | [] => rfl
  | a :: as => by
    simp only [sortedAll, documents, Json.sortedItems, document_sorted a, documents_sortedAll as]

end

end Action

/-! ## UI trees -/

namespace Node

mutual

/-- A UI tree with the properties of its components, and the entries of all maps in it, in the order of
their names. -/
def sorted : Node → Node
  | .container layout nodes => .container layout (sortedAll nodes)
  | .text role content => .text role content.sorted
  | .button label navigation handler actions =>
    .button label (navigation.map Navigation.sorted) handler (Action.sortedAll actions)
  | .image source => .image source
  | .input label binding => .input label binding
  | .list binding template => .list binding (sorted template)
  | .conditional condition thenBranch elseBranch =>
    .conditional condition.sorted (sorted thenBranch) (sortedElse elseBranch)
  | .component name props => .component name (Json.sortEntries (Json.mapEntries Expr.sorted props))

/-- Some UI trees, each sorted. -/
def sortedAll : List Node → List Node
  | [] => []
  | n :: ns => sorted n :: sortedAll ns

/-- An optional UI tree, sorted. -/
def sortedElse : Option Node → Option Node
  | none => none
  | some n => some (sorted n)

end

/-! ### Forms -/

/-- What a node is, apart from its parts. -/
inductive Form where
  | container (layout : Layout)
  | text (role : TextRole)
  | button | image | input | list | conditional | component
deriving DecidableEq

/-- All forms. -/
def Form.all : List Form :=
  Layout.all.map .container ++ [.text .label, .text .title, .button, .image, .input, .list, .conditional,
    .component]

/-- The kind of the nodes of a form. -/
def Form.kind : Form → String
  | .container layout => layout.name
  | .text role => role.name
  | .button => "button"
  | .image => "image"
  | .input => "input"
  | .list => "list"
  | .conditional => "if"
  | .component => "component"

/-- The form of a node. -/
def form : Node → Form
  | .container layout _ => .container layout
  | .text role _ => .text role
  | .button .. => .button
  | .image _ => .image
  | .input .. => .input
  | .list .. => .list
  | .conditional .. => .conditional
  | .component .. => .component

/-- The form of a kind. -/
theorem Form.find?_kind (f : Form) : Form.all.find? (·.kind == f.kind) = some f := by
  cases f with
  | container layout => cases layout <;> decide
  | text role => cases role <;> decide
  | _ => decide

/-- A node is written with the kind of its form. -/
theorem exists_ofKind (n : Node) : ∃ fields, n.document = .ofKind n.form.kind fields := by
  cases n <;> exact ⟨_, rfl⟩

/-- Nodes whose documents are equal up to order have the same form. -/
theorem form_eq {n m : Node} (h : n.document.sorted = m.document.sorted) : n.form = m.form := by
  obtain ⟨fields, hn⟩ := n.exists_ofKind
  obtain ⟨fields', hm⟩ := m.exists_ofKind
  rw [hn, hm] at h
  have found := n.form.find?_kind
  rw [Json.kind_eq h, m.form.find?_kind] at found
  exact (Option.some.inj found).symm

/-! ### Parts -/

/-- The document of an optional navigation tells it. -/
theorem navigation_eq {n m : Option Navigation}
    (h : ((n.map Navigation.document).getD .null).sorted = ((m.map Navigation.document).getD .null).sorted) :
    n.map Navigation.sorted = m.map Navigation.sorted := by
  cases n with
  | none =>
    cases m with
    | none => rfl
    | some m => cases h
  | some n =>
    cases m with
    | none => cases h
    | some m =>
      have hn : n.sorted = m.sorted := Navigation.sorted_eq h
      rw [Option.map_some, Option.map_some, hn]

/-- The document of an optional name tells it. -/
theorem handler_eq {s t : Option String} (h : (Json.ofText? s).sorted = (Json.ofText? t).sorted) : s = t := by
  cases s with
  | none =>
    cases t with
    | none => rfl
    | some t => cases h
  | some s =>
    cases t with
    | none => cases h
    | some t => rw [Json.text_eq h]

/-- The document of the properties of a component tells them up to their order. -/
theorem props_eq {props props' : List (String × Expr)}
    (h : (Json.object (Json.mapEntries Expr.document props)).sorted
      = (Json.object (Json.mapEntries Expr.document props')).sorted) :
    Json.sortEntries (Json.mapEntries Expr.sorted props)
      = Json.sortEntries (Json.mapEntries Expr.sorted props') := by
  have same := Json.entries_eq h
  -- the order depends on the names alone, so documents can be compared after sorting the properties
  rw [Json.sortEntries_map, Json.sortEntries_map] at same
  rw [Json.sortEntries_map, Json.sortEntries_map]
  unfold Json.mapEntries at *
  rw [List.map_map, List.map_map] at same
  refine map_eq_of_map_eq (fun a b hab => ?_) same
  obtain ⟨key, value⟩ := Prod.mk.inj hab
  rw [key, Expr.sorted_eq a.2 b.2 value]

mutual

/-- The document of a node tells it. -/
theorem sorted_eq : ∀ a b : Node, a.document.sorted = b.document.sorted → a.sorted = b.sorted
  | .container layout nodes, b, h => by
    -- the kinds of containers and texts vary, so the forms are compared in place of the kinds
    have hf := form_eq h
    cases b with
    | container layout' nodes' =>
      have hl : layout = layout' := Form.container.inj hf
      have hn := sortedAll_eq nodes nodes' (Json.items_eq (Json.field_eq h "children" rfl rfl))
      rw [sorted, sorted, hl, hn]
    | _ => cases hf
  | .text role content, b, h => by
    have hf := form_eq h
    cases b with
    | text role' content' =>
      have hr : role = role' := Form.text.inj hf
      have hc := Expr.sorted_eq content content' (Json.field_eq h "text" rfl rfl)
      rw [sorted, sorted, hr, hc]
    | _ => cases hf
  | .button label navigation handler actions, b, h => by
    have hf := form_eq h
    cases b with
    | button label' navigation' handler' actions' =>
      have hl := Json.text_eq (Json.field_eq h "label" rfl rfl)
      have hn := navigation_eq (Json.field_eq h "navigate" rfl rfl)
      have hh := handler_eq (Json.field_eq h "action_ref" rfl rfl)
      have ha := Action.sortedAll_eq actions actions' (Json.items_eq (Json.field_eq h "actions" rfl rfl))
      rw [sorted, sorted, hl, hn, hh, ha]
    | _ => cases hf
  | .image source, b, h => by
    have hf := form_eq h
    cases b with
    | image source' =>
      have hs := Json.text_eq (Json.field_eq h "src" rfl rfl)
      rw [hs]
    | _ => cases hf
  | .input label binding, b, h => by
    have hf := form_eq h
    cases b with
    | input label' binding' =>
      have hl := Json.text_eq (Json.field_eq h "label" rfl rfl)
      have hb := Json.text_eq (Json.field_eq h "binding" rfl rfl)
      rw [hl, hb]
    | _ => cases hf
  | .list binding template, b, h => by
    have hf := form_eq h
    cases b with
    | list binding' template' =>
      have hb := Json.text_eq (Json.field_eq h "binding" rfl rfl)
      have ht := sorted_eq template template' (Json.field_eq h "template" rfl rfl)
      rw [sorted, sorted, hb, ht]
    | _ => cases hf
  | .conditional condition thenBranch elseBranch, b, h => by
    have hf := form_eq h
    cases b with
    | conditional condition' thenBranch' elseBranch' =>
      have hc := Expr.sorted_eq condition condition' (Json.field_eq h "condition" rfl rfl)
      have ht := sorted_eq thenBranch thenBranch' (Json.field_eq h "then_branch" rfl rfl)
      have he := sortedElse_eq elseBranch elseBranch' (Json.field_eq h "else_branch" rfl rfl)
      rw [sorted, sorted, hc, ht, he]
    | _ => cases hf
  | .component name props, b, h => by
    have hf := form_eq h
    cases b with
    | component name' props' =>
      have hn := Json.text_eq (Json.field_eq h "name" rfl rfl)
      have hp := props_eq (Json.field_eq h "props" rfl rfl)
      rw [sorted, sorted, hn, hp]
    | _ => cases hf

theorem sortedAll_eq : ∀ as bs : List Node,
    (documents as).map Json.sorted = (documents bs).map Json.sorted → sortedAll as = sortedAll bs
  | [], [], _ => rfl
  | [], _ :: _, h => nomatch h
  | _ :: _, [], h => nomatch h
  | a :: as, b :: bs, h => by
    obtain ⟨first, later⟩ := List.cons_eq_cons.mp h
    rw [sortedAll, sortedAll, sorted_eq a b first, sortedAll_eq as bs later]

/-- The document of an optional node tells it: that of a node is not null. -/
theorem sortedElse_eq : ∀ a b : Option Node,
    (documentOfElse a).sorted = (documentOfElse b).sorted → sortedElse a = sortedElse b
  | none, none, _ => rfl
  | none, some b, h => by
    obtain ⟨fields, hb⟩ := b.exists_ofKind
    rw [documentOfElse, documentOfElse, hb] at h
    cases h
  | some a, none, h => by
    obtain ⟨fields, ha⟩ := a.exists_ofKind
    rw [documentOfElse, documentOfElse, ha] at h
    cases h
  | some a, some b, h => by
    rw [sortedElse, sortedElse, sorted_eq a b h]

end

theorem props_sorted (props : List (String × Expr)) :
    (Json.object (Json.mapEntries Expr.document
        (Json.sortEntries (Json.mapEntries Expr.sorted props)))).sorted
      = (Json.object (Json.mapEntries Expr.document props)).sorted := by
  have values : Json.mapEntries Json.sorted (Json.mapEntries Expr.document (Json.mapEntries Expr.sorted props))
      = Json.mapEntries Json.sorted (Json.mapEntries Expr.document props) := by
    unfold Json.mapEntries
    simp only [List.map_map]
    refine List.map_congr_left fun e _ => ?_
    exact Prod.ext rfl e.2.document_sorted
  rw [Json.sorted, Json.sorted, Json.sortedEntries_eq, Json.sortedEntries_eq, ← values,
    ← Json.sortEntries_map, ← Json.sortEntries_map, Json.sortEntries_sortEntries]

theorem navigation_sorted (n : Option Navigation) :
    (((n.map Navigation.sorted).map Navigation.document).getD .null).sorted
      = ((n.map Navigation.document).getD .null).sorted := by
  cases n with
  | none => rfl
  | some n => exact n.document_sorted

mutual

/-- The document of a node does not tell the order of entries and properties. -/
theorem document_sorted : ∀ n : Node, n.sorted.document.sorted = n.document.sorted
  | .container _ nodes => by
    simp only [sorted, document, Json.ofKind, Json.sorted, Json.sortedEntries, documents_sortedAll nodes]
  | .text _ content => by
    simp only [sorted, document, Json.ofKind, Json.sorted, Json.sortedEntries, content.document_sorted]
  | .button _ navigation _ actions => by
    simp only [sorted, document, Json.ofKind, Json.sorted, Json.sortedEntries, navigation_sorted navigation,
      Action.documents_sortedAll actions]
  | .image _ => rfl
  | .input .. => rfl
  | .list _ template => by
    simp only [sorted, document, Json.ofKind, Json.sorted, Json.sortedEntries, document_sorted template]
  | .conditional condition thenBranch elseBranch => by
    simp only [sorted, document, Json.ofKind, Json.sorted, Json.sortedEntries, condition.document_sorted,
      document_sorted thenBranch, documentOfElse_sorted elseBranch]
  | .component _ props => by
    have hp := props_sorted props
    unfold Json.mapEntries at hp
    simp only [sorted, document, Json.ofKind, Json.sorted, Json.sortedEntries, Json.mapEntries] at hp ⊢
    rw [hp]

theorem documents_sortedAll :
    ∀ ns : List Node, Json.sortedItems (documents (sortedAll ns)) = Json.sortedItems (documents ns)
  | [] => rfl
  | n :: ns => by
    simp only [sortedAll, documents, Json.sortedItems, document_sorted n, documents_sortedAll ns]

theorem documentOfElse_sorted :
    ∀ n : Option Node, (documentOfElse (sortedElse n)).sorted = (documentOfElse n).sorted
  | none => rfl
  | some n => by
    simp only [sortedElse, documentOfElse, document_sorted n]

end

/-- Two components are equal when sorted exactly if their properties, with sorted values, are the same up to
their order. -/
theorem sorted_component_iff {name name' : String} {props props' : List (String × Expr)}
    (distinct : (props.map (·.1)).Nodup) :
    (component name props).sorted = (component name' props').sorted ↔
      name = name' ∧ (Json.mapEntries Expr.sorted props).Perm (Json.mapEntries Expr.sorted props') := by
  have names : (Json.mapEntries Expr.sorted props).map (·.1) = props.map (·.1) := by
    unfold Json.mapEntries
    rw [List.map_map]
    rfl
  rw [sorted, sorted, component.injEq, Json.sortEntries_eq_iff]
  rwa [names]

end Node

/-! ## Declarations -/

/-- A state variable with the entries of all maps in its value in the order of their names. -/
def StateVar.sorted (v : StateVar) : StateVar := ⟨v.name, v.value.sorted⟩

/-- A handler with the entries of all maps in it in the order of their names. -/
def Handler.sorted (h : Handler) : Handler := ⟨h.name, Action.sortedAll h.body⟩

/-- A screen with its properties of components and the entries of all maps in the order of their names. -/
def Screen.sorted (s : Screen) : Screen :=
  ⟨s.name, s.params, s.state.map StateVar.sorted, s.ui.sorted, s.handlers.map Handler.sorted⟩

/-- A field with the entries of all maps in its default in the order of their names. -/
def DataField.sorted (f : DataField) : DataField := ⟨f.name, f.typeName, f.default.sorted⟩

/-- A data model with the entries of all maps in its defaults in the order of their names. -/
def DataModel.sorted (m : DataModel) : DataModel := ⟨m.name, m.fields.map DataField.sorted⟩

/-- A program with the entries of all maps and the properties of all components in the order of their
names. -/
def Program.sorted (p : Program) : Program :=
  ⟨p.name, p.start, p.screens.map Screen.sorted, p.state.map StateVar.sorted, p.imports,
    p.models.map DataModel.sorted⟩

/-! ### Their documents -/

/-- Lists of documents that are equal up to order are documents of things that are. -/
theorem list_eq {α β : Type} {document : α → Json} {sorted : α → β}
    (single : ∀ a b, (document a).sorted = (document b).sorted → sorted a = sorted b) {as bs : List α}
    (h : (Json.list (as.map document)).sorted = (Json.list (bs.map document)).sorted) :
    as.map sorted = bs.map sorted := by
  have items := Json.items_eq h
  rw [List.map_map, List.map_map] at items
  exact map_eq_of_map_eq single items

/-- Sorting what documents are of does not change the sorted documents. -/
theorem list_sorted {α : Type} {document : α → Json} {sorted : α → α}
    (single : ∀ a, (document (sorted a)).sorted = (document a).sorted) (as : List α) :
    (Json.list ((as.map sorted).map document)).sorted = (Json.list (as.map document)).sorted := by
  rw [Json.sorted, Json.sorted, Json.sortedItems_eq, Json.sortedItems_eq, List.map_map, List.map_map,
    List.map_map]
  exact congrArg Json.list (List.map_congr_left fun a _ => single a)

/-- An import as a document. -/
def importDocument (path : String) : Json := .object [("path", .text path)]

theorem importDocument_inj (path path' : String)
    (h : (importDocument path).sorted = (importDocument path').sorted) : id path = id path' :=
  Json.text_eq (Json.field_eq h "path" rfl rfl)

/-- A parameter as a document. -/
def Param.document (p : Param) : Json := .object [("name", .text p.name), ("type_name", .text p.typeName)]

theorem Param.document_inj (a b : Param) (h : a.document.sorted = b.document.sorted) : id a = id b := by
  have hn := Json.text_eq (Json.field_eq h "name" rfl rfl)
  have ht := Json.text_eq (Json.field_eq h "type_name" rfl rfl)
  show (⟨a.name, a.typeName⟩ : Param) = ⟨b.name, b.typeName⟩
  rw [hn, ht]

namespace StateVar

theorem sorted_eq (v w : StateVar) (h : v.document.sorted = w.document.sorted) : v.sorted = w.sorted := by
  have hn := Json.text_eq (Json.field_eq h "name" rfl rfl)
  have hv := Value.sorted_eq (Json.field_eq h "value" rfl rfl)
  rw [sorted, sorted, hn, hv]

theorem document_sorted (v : StateVar) : v.sorted.document.sorted = v.document.sorted := by
  simp only [sorted, document, Json.sorted, Json.sortedEntries, v.value.document_sorted]

end StateVar

namespace Handler

/-- A handler as a document. -/
def document (h : Handler) : Json :=
  .object [("name", .text h.name), ("body", .list (Action.documents h.body))]

theorem sorted_eq (g h : Handler) (same : g.document.sorted = h.document.sorted) : g.sorted = h.sorted := by
  have hn := Json.text_eq (Json.field_eq same "name" rfl rfl)
  have hb := Action.sortedAll_eq g.body h.body (Json.items_eq (Json.field_eq same "body" rfl rfl))
  rw [sorted, sorted, hn, hb]

theorem document_sorted (h : Handler) : h.sorted.document.sorted = h.document.sorted := by
  simp only [sorted, document, Json.sorted, Json.sortedEntries, Action.documents_sortedAll h.body]

end Handler

namespace DataField

/-- A field of a data model as a document. -/
def document (f : DataField) : Json :=
  .object [("name", .text f.name), ("type_name", .text f.typeName), ("default", .ofValue f.default)]

theorem sorted_eq (f g : DataField) (h : f.document.sorted = g.document.sorted) : f.sorted = g.sorted := by
  have hn := Json.text_eq (Json.field_eq h "name" rfl rfl)
  have ht := Json.text_eq (Json.field_eq h "type_name" rfl rfl)
  have hv := Value.sorted_eq (Json.field_eq h "default" rfl rfl)
  rw [sorted, sorted, hn, ht, hv]

theorem document_sorted (f : DataField) : f.sorted.document.sorted = f.document.sorted := by
  simp only [sorted, document, Json.sorted, Json.sortedEntries, f.default.document_sorted]

end DataField

namespace DataModel

theorem document_eq (m : DataModel) :
    m.document = .object [("name", .text m.name), ("fields", .list (m.fields.map DataField.document))] := rfl

theorem sorted_eq (m n : DataModel) (h : m.document.sorted = n.document.sorted) : m.sorted = n.sorted := by
  have hn := Json.text_eq (Json.field_eq h "name" rfl rfl)
  have hf := list_eq DataField.sorted_eq (Json.field_eq h "fields" rfl rfl)
  rw [sorted, sorted, hn, hf]

theorem document_sorted (m : DataModel) : m.sorted.document.sorted = m.document.sorted := by
  have hf := list_sorted DataField.document_sorted m.fields
  rw [document_eq, document_eq, Json.sorted, Json.sorted]
  simp only [Json.sortedEntries, sorted, hf]

end DataModel

namespace Screen

theorem document_eq (s : Screen) :
    s.document = .object [("name", .text s.name), ("params", .list (s.params.map Param.document)),
      ("state", .list (s.state.map StateVar.document)), ("ui", s.ui.document),
      ("actions", .list (s.handlers.map Handler.document))] := rfl

/-- The document of a screen tells it. -/
theorem sorted_eq (s t : Screen) (h : s.document.sorted = t.document.sorted) : s.sorted = t.sorted := by
  have hn := Json.text_eq (Json.field_eq h "name" rfl rfl)
  have hp := list_eq Param.document_inj (Json.field_eq h "params" rfl rfl)
  have hs := list_eq StateVar.sorted_eq (Json.field_eq h "state" rfl rfl)
  have hu := Node.sorted_eq s.ui t.ui (Json.field_eq h "ui" rfl rfl)
  have hh := list_eq Handler.sorted_eq (Json.field_eq h "actions" rfl rfl)
  rw [List.map_id, List.map_id] at hp
  rw [sorted, sorted, hn, hp, hs, hu, hh]

theorem document_sorted (s : Screen) : s.sorted.document.sorted = s.document.sorted := by
  have hs := list_sorted StateVar.document_sorted s.state
  have hh := list_sorted Handler.document_sorted s.handlers
  rw [document_eq, document_eq, Json.sorted, Json.sorted]
  simp only [Json.sortedEntries, sorted, hs, hh, s.ui.document_sorted]

end Screen

namespace Program

theorem document_eq (p : Program) :
    p.document = .object [("name", .text p.name), ("start_screen", .text p.start),
      ("screens", .list (p.screens.map Screen.document)), ("state", .list (p.state.map StateVar.document)),
      ("imports", .list (p.imports.map importDocument)),
      ("data_models", .list (p.models.map DataModel.document))] := rfl

/-- The document of a program tells it. -/
theorem sorted_eq (p q : Program) (h : p.document.sorted = q.document.sorted) : p.sorted = q.sorted := by
  have hn := Json.text_eq (Json.field_eq h "name" rfl rfl)
  have hs := Json.text_eq (Json.field_eq h "start_screen" rfl rfl)
  have hc := list_eq Screen.sorted_eq (Json.field_eq h "screens" rfl rfl)
  have hv := list_eq StateVar.sorted_eq (Json.field_eq h "state" rfl rfl)
  have hi := list_eq importDocument_inj (Json.field_eq h "imports" rfl rfl)
  have hm := list_eq DataModel.sorted_eq (Json.field_eq h "data_models" rfl rfl)
  rw [List.map_id, List.map_id] at hi
  rw [sorted, sorted, hn, hs, hc, hv, hi, hm]

theorem document_sorted (p : Program) : p.sorted.document.sorted = p.document.sorted := by
  have hc := list_sorted Screen.document_sorted p.screens
  have hv := list_sorted StateVar.document_sorted p.state
  have hm := list_sorted DataModel.document_sorted p.models
  rw [document_eq, document_eq, Json.sorted, Json.sorted]
  simp only [Json.sortedEntries, sorted, hc, hv, hm]

end Program

/-! ## Texts -/

/-- Whether the text of a document, on one line or indented, tells what it is the document of: two of them
have the same text exactly if they are equal when sorted. -/
def Identifies {α : Type} (document : α → Json) (sorted : α → α) : Prop :=
  ∀ style : Json.Style, style.sorted = true → ∀ a b : α,
    (document a).render style = (document b).render style ↔ sorted a = sorted b

/-- Documents identify if they tell what they are of and nothing of the order in it. -/
theorem identifies_of_documents {α : Type} {document : α → Json} {sorted : α → α}
    (tells : ∀ a b, (document a).sorted = (document b).sorted → sorted a = sorted b)
    (forgets : ∀ a, (document (sorted a)).sorted = (document a).sorted) : Identifies document sorted := by
  intro style hs a b
  rw [Json.render_eq_iff hs]
  refine ⟨tells a b, fun h => ?_⟩
  rw [← forgets a, h, forgets b]

namespace Artifact

/-- Programs with the same artifact, whatever their permissions, are equal up to the order of the entries in
maps and of the properties of components. The texts of nodes, actions, expressions and values tell them in
the same way. -/
theorem text_identifies :
    (∀ form p q permissions permissions',
      text form p permissions = text form q permissions' → p.sorted = q.sorted) ∧
    Identifies Program.document Program.sorted ∧ Identifies Node.document Node.sorted ∧
    Identifies Action.document Action.sorted ∧ Identifies Expr.document Expr.sorted ∧
    Identifies Json.ofValue Value.sorted := by
  refine ⟨fun form p q permissions permissions' h => ?_,
    identifies_of_documents Program.sorted_eq Program.document_sorted,
    identifies_of_documents Node.sorted_eq Node.document_sorted,
    identifies_of_documents Action.sorted_eq Action.document_sorted,
    identifies_of_documents Expr.sorted_eq Expr.document_sorted,
    identifies_of_documents (fun _ _ => Value.sorted_eq) Value.document_sorted⟩
  have style : (if form.compact then Json.Style.compact else .pretty).sorted = true := by
    split <;> rfl
  have same := (Json.render_eq_iff style).mp h
  exact Program.sorted_eq p q (Json.field_eq same "program" rfl rfl)

/-- A program whose state holds a map. -/
def album (entries : List (String × Value)) : Program :=
  ⟨"A", "Home", [⟨"Home", [], [], .container .column [], []⟩], [⟨"sizes", .map entries⟩], [], []⟩

/-- The order of two entries is not in the artifact, and the two programs are equal without it. -/
theorem text_identifies_album :
    text ⟨true, "web", true⟩ (album [("b", .int 2), ("a", .int 1)]) []
        = text ⟨true, "web", true⟩ (album [("a", .int 1), ("b", .int 2)]) [] ∧
      (album [("b", .int 2), ("a", .int 1)]).sorted = (album [("a", .int 1), ("b", .int 2)]).sorted := by
  have same : text ⟨true, "web", true⟩ (album [("b", .int 2), ("a", .int 1)]) []
      = text ⟨true, "web", true⟩ (album [("a", .int 1), ("b", .int 2)]) [] := by
    rw [text, text, if_pos rfl, Json.render_eq_iff rfl]
    rfl
  exact ⟨same, text_identifies.1 _ _ _ _ _ same⟩

end Artifact

end Screenplay
