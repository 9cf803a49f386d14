/-
The parts of a program: the nodes of its UI trees, the actions of its behaviour and the expressions that
it evaluates, at any depth. They are told by the children of a node, the blocks of an action and the operands
of an expression. The sites of the screens are a walk over these parts: it comes to each of them and to
nothing else, and it goes down as far as the trees are high.
-/
import Screenplay.Proofs.Program.Places
import Screenplay.Proofs.Program.Vetted

namespace Screenplay

/-! ## Expressions -/

namespace Expr

/-- The direct operands of an expression. -/
def operands : Expr → List Expr
  | .literal _ | .var _ => []
  | .field target _ => [target]
  | .not operand => [operand]
  | .binary _ left right => [left, right]
  | .call _ args => args
  | .interpolation parts => parts

theorem operand_smaller {e operand : Expr} (h : operand ∈ e.operands) : sizeOf operand < sizeOf e := by
  cases e with
  | literal | var => cases h
  | field | not =>
    cases List.mem_singleton.mp h
    simp only [field.sizeOf_spec, not.sizeOf_spec]
    omega
  | binary =>
    simp only [operands, List.mem_cons, List.not_mem_nil, or_false] at h
    rcases h with rfl | rfl <;> simp only [binary.sizeOf_spec] <;> omega
  | call _ args =>
    have : sizeOf operand < sizeOf args := List.sizeOf_lt_of_mem h
    simp only [call.sizeOf_spec]
    omega
  | interpolation parts =>
    have : sizeOf operand < sizeOf parts := List.sizeOf_lt_of_mem h
    simp only [interpolation.sizeOf_spec]
    omega

theorem nodesOf_eq (depth : Nat) (es : List Expr) : nodesOf depth es = es.flatMap (nodes depth) := by
  induction es with
  | nil => rfl
  | cons e es ih => rw [nodesOf, ih, List.flatMap_cons]

theorem nodes_eq (depth : Nat) (e : Expr) :
    e.nodes depth = (depth, e) :: e.operands.flatMap (nodes (depth + 1)) := by
  cases e <;> simp [nodes, operands, nodesOf_eq]

theorem depth_pos (e : Expr) : 0 < e.depth := by
  cases e <;> simp only [depth] <;> omega

theorem maxDepthOf_le {k : Nat} {es : List Expr} : maxDepthOf es ≤ k ↔ ∀ e ∈ es, e.depth ≤ k := by
  induction es with
  | nil => simp [maxDepthOf]
  | cons e es ih => rw [maxDepthOf, Nat.max_le, ih, List.forall_mem_cons]

/-- An expression is one level deeper than its deepest operand. -/
theorem depth_le_succ {e : Expr} {k : Nat} : e.depth ≤ k + 1 ↔ ∀ c ∈ e.operands, c.depth ≤ k := by
  have levels : e.depth = 1 + maxDepthOf e.operands := by
    cases e <;> simp [depth, operands, maxDepthOf]
  rw [levels, ← maxDepthOf_le]
  omega

/-- The sites of an expression are everything in it, each at its depth. -/
theorem mem_sites {e : Expr} {site : Site} :
    site ∈ e.sites ↔ ∃ place x, partAt? operands e place = some x ∧ site = .expr (1 + place.length) x := by
  have walk {n : Nat × Expr} : n ∈ e.nodes 1 ↔
      ∃ place x, partAt? operands e place = some x ∧ n ∈ [(1 + place.length, x)] :=
    mem_walk operand_smaller nodes (fun depth x => [(depth, x)]) (by
      intro depth e
      rw [nodes_eq, List.mem_cons, List.mem_singleton, List.mem_flatMap])
  simp only [sites, List.mem_map, walk, List.mem_singleton]
  constructor
  · rintro ⟨_, ⟨place, x, hp, rfl⟩, rfl⟩
    exact ⟨place, x, hp, rfl⟩
  · rintro ⟨place, x, hp, rfl⟩
    exact ⟨_, ⟨place, x, hp, rfl⟩, rfl⟩

end Expr

/-! ## Actions -/

namespace Action

/-- The expressions that an action evaluates, its blocks apart. -/
def exprs : Action → List Expr
  | .navigate n => n.args
  | .update _ value _ => [value]
  | .call _ args => args
  | .branch condition .. => [condition]
  | .loop .. | .code _ => []

/-- The blocks of an action. -/
def blocks : Action → List (List Action)
  | .branch _ thenActions elseActions => [thenActions, elseActions]
  | .loop _ _ body => [body]
  | .navigate _ | .update .. | .call .. | .code _ => []

/-- The blocks of the actions of a block. -/
def innerBlocks (actions : List Action) : List (List Action) := actions.flatMap blocks

theorem block_smaller {a : Action} {block : List Action} (h : block ∈ a.blocks) :
    sizeOf block < sizeOf a := by
  cases a with
  | branch =>
    simp only [blocks, List.mem_cons, List.not_mem_nil, or_false] at h
    rcases h with rfl | rfl <;> simp only [branch.sizeOf_spec] <;> omega
  | loop =>
    cases List.mem_singleton.mp h
    simp only [loop.sizeOf_spec]
    omega
  | _ => cases h

theorem innerBlock_smaller {actions block : List Action} (h : block ∈ innerBlocks actions) :
    sizeOf block < sizeOf actions := by
  obtain ⟨a, ha, hb⟩ := List.mem_flatMap.mp h
  have := block_smaller hb
  have := List.sizeOf_lt_of_mem ha
  omega

/-- The actions directly inside an action, those of all its blocks. -/
def inner (a : Action) : List Action := a.blocks.flatten

theorem inner_smaller {a part : Action} (h : part ∈ a.inner) : sizeOf part < sizeOf a := by
  obtain ⟨block, hb, hm⟩ := List.mem_flatten.mp h
  have := block_smaller hb
  have := List.sizeOf_lt_of_mem hm
  omega

/-- The actions of the blocks in a block are the actions inside its own. -/
theorem holds_inner {actions : List Action} {a : Action} :
    (∃ root ∈ actions, Holds inner root a) ↔ ∃ block, Holds innerBlocks actions block ∧ a ∈ block := by
  constructor
  · -- every step into an action is one into a block of it
    rintro ⟨root, hr, place, ha⟩
    induction place generalizing actions root with
    | nil =>
      cases ha
      exact ⟨actions, .refl actions, hr⟩
    | cons i place ih =>
      obtain ⟨part, hi, ha⟩ := Option.bind_eq_some_iff.mp ha
      obtain ⟨block, hb, hm⟩ := List.mem_flatten.mp (List.mem_of_getElem? hi)
      obtain ⟨innermost, inside, hm⟩ := ih part hm ha
      exact ⟨innermost, inside.of_part (List.mem_flatMap.mpr ⟨root, hr, hb⟩), hm⟩
  · rintro ⟨block, ⟨place, hb⟩, ha⟩
    induction place generalizing actions with
    | nil =>
      cases hb
      exact ⟨a, ha, .refl a⟩
    | cons i place ih =>
      obtain ⟨next, hi, hb⟩ := Option.bind_eq_some_iff.mp hb
      obtain ⟨outer, ho, hn⟩ := List.mem_flatMap.mp (List.mem_of_getElem? hi)
      obtain ⟨root, hr, ha⟩ := ih hb
      exact ⟨outer, ho, ha.of_part (List.mem_flatten.mpr ⟨next, hn, hr⟩)⟩

theorem sitesOf_eq (under depth : Nat) (actions : List Action) :
    sitesOf under depth actions = actions.flatMap (sites under depth) := by
  induction actions with
  | nil => rfl
  | cons a actions ih => rw [sitesOf, ih, List.flatMap_cons]

/-- The sites of an action that are no blocks and lie in none. -/
def ownSites (a : Action) : List Site := .action a :: Expr.sitesOf a.exprs

/-- The sites of an action: its own, and those of its blocks. -/
theorem sites_eq (under depth : Nat) (a : Action) :
    a.sites under depth = a.ownSites ++ a.blocks.flatMap (blockSites under (depth + 1)) := by
  cases a <;> simp [sites, ownSites, exprs, blocks, blockSites, Navigation.sites, Expr.sitesOf]

/-- The sites of a block are those of all blocks in it, each at its depth. -/
theorem mem_blockSites {under depth : Nat} {actions : List Action} {site : Site} :
    site ∈ blockSites under depth actions ↔
      ∃ place block, partAt? innerBlocks actions place = some block ∧
        site ∈ Site.block under (depth + place.length) :: block.flatMap ownSites := by
  refine mem_walk innerBlock_smaller (blockSites under)
    (fun depth block => .block under depth :: block.flatMap ownSites) ?_
  intro depth block
  rw [blockSites, sitesOf_eq, List.mem_cons, List.mem_cons]
  simp only [List.mem_flatMap, sites_eq, List.mem_append, innerBlocks, and_or_left, exists_or, or_assoc]
  refine or_congr_right (or_congr_right ?_)
  constructor
  · rintro ⟨a, ha, block, hb, h⟩
    exact ⟨block, ⟨a, ha, hb⟩, h⟩
  · rintro ⟨block, ⟨a, ha, hb⟩, h⟩
    exact ⟨a, ha, block, hb, h⟩

mutual

/-- The number of levels of blocks inside an action. -/
def nesting : Action → Nat
  | .branch _ thenActions elseActions => max (nestingOf thenActions) (nestingOf elseActions)
  | .loop _ _ body => nestingOf body
  | .navigate _ | .update .. | .call .. | .code _ => 0

/-- The number of levels of a block: one for itself, whether it has actions or not, and those inside its
actions. -/
def nestingOf : List Action → Nat
  | [] => 1
  | a :: actions => max (1 + nesting a) (nestingOf actions)

end

theorem nestingOf_pos (actions : List Action) : 0 < nestingOf actions := by
  cases actions <;> simp only [nestingOf] <;> omega

theorem nesting_le {k : Nat} (a : Action) : a.nesting ≤ k ↔ ∀ block ∈ a.blocks, nestingOf block ≤ k := by
  cases a <;> simp [nesting, blocks]

/-- A block has one level more than the highest block in it. -/
theorem nestingOf_le_succ {actions : List Action} {k : Nat} :
    nestingOf actions ≤ k + 1 ↔ ∀ block ∈ innerBlocks actions, nestingOf block ≤ k := by
  induction actions with
  | nil => simp [nestingOf, innerBlocks]
  | cons a actions ih =>
    rw [nestingOf, Nat.max_le, ih, Nat.add_comm, Nat.add_le_add_iff_right, nesting_le, innerBlocks,
      innerBlocks, List.flatMap_cons, List.forall_mem_append]

end Action

/-! ## UI trees -/

namespace Node

/-- The expressions that a node evaluates, its actions and children apart. -/
def exprs : Node → List Expr
  | .text _ content => [content]
  | .conditional condition .. => [condition]
  | .component _ props => props.map (·.2)
  | .container .. | .button .. | .image _ | .input .. | .list .. => []

theorem child_smaller {n child : Node} (h : child ∈ n.children) : sizeOf child < sizeOf n := by
  match n, h with
  | .container _ nodes, h =>
    have : sizeOf child < sizeOf nodes := List.sizeOf_lt_of_mem h
    simp only [container.sizeOf_spec]
    omega
  | .list _ template, h =>
    cases List.mem_singleton.mp h
    simp only [list.sizeOf_spec]
    omega
  | .conditional _ thenBranch none, h =>
    cases List.mem_singleton.mp h
    simp only [conditional.sizeOf_spec]
    omega
  | .conditional _ thenBranch (some elseBranch), h =>
    simp only [children, List.mem_cons, List.not_mem_nil, or_false] at h
    rcases h with rfl | rfl <;> simp only [conditional.sizeOf_spec, Option.some.sizeOf_spec] <;> omega

/-- The sites of a node that are in none of its children. -/
def ownSites (depth : Nat) : Node → List Site
  | .button label navigation handler actions =>
    .node depth (.button label navigation handler actions)
      :: navigation.toList.flatMap Navigation.sites ++ handler.toList.map .handler
      ++ Action.blockSites depth 1 actions
  | .component name props => .node depth (.component name props) :: propSites name props
  | n => .node depth n :: Expr.sitesOf n.exprs

theorem sitesOf_eq (depth : Nat) (nodes : List Node) :
    sitesOf depth nodes = nodes.flatMap (sites depth) := by
  induction nodes with
  | nil => rfl
  | cons n nodes ih => rw [sitesOf, ih, List.flatMap_cons]

/-- The sites of a tree: those of the root, and those of its children one level deeper. -/
theorem sites_eq (depth : Nat) (n : Node) :
    n.sites depth = n.ownSites depth ++ n.children.flatMap (sites (depth + 1)) := by
  match n with
  | .container .. | .text .. | .button .. | .image _ | .input .. | .list .. | .component .. =>
    simp [sites, ownSites, exprs, children, Expr.sitesOf, sitesOf_eq]
  | .conditional _ _ none | .conditional _ _ (some _) =>
    simp [sites, ownSites, exprs, children, Expr.sitesOf, sitesOfElse]

/-- The sites of a tree are those of all nodes in it, each at its depth. -/
theorem mem_sites {depth : Nat} {n : Node} {site : Site} :
    site ∈ n.sites depth ↔
      ∃ place m, partAt? children n place = some m ∧ site ∈ m.ownSites (depth + place.length) := by
  refine mem_walk child_smaller sites ownSites ?_
  intro depth n
  rw [sites_eq, List.mem_append, List.mem_flatMap]

end Node

/-! ## Programs -/

/-- A node of one of the UI trees of a program. -/
def Program.HasNode (p : Program) (n : Node) : Prop := ∃ s ∈ p.screens, Holds Node.children s.ui n

/-- A block of actions that stands by itself: that of a button at some depth, or the body of a handler,
which is under no node. -/
inductive Program.Behaves (p : Program) : Nat → List Action → Prop
  | button {s : Screen} (hs : s ∈ p.screens) {place : List Nat} {label : String}
    {navigation : Option Navigation} {handler : Option String} {actions : List Action}
    (h : partAt? Node.children s.ui place = some (.button label navigation handler actions)) :
    p.Behaves (1 + place.length) actions
  | handler {s : Screen} (hs : s ∈ p.screens) {h : Handler} (hh : h ∈ s.handlers) : p.Behaves 0 h.body

/-- An action of a program: the navigation of a button, or an action in a block at any depth. -/
inductive Program.HasAction (p : Program) : Action → Prop
  | navigation {label : String} {n : Navigation} {handler : Option String} {actions : List Action}
    (h : p.HasNode (.button label (some n) handler actions)) : p.HasAction (.navigate n)
  | block {under : Nat} {outer block : List Action} (h : p.Behaves under outer)
    (hb : Holds Action.innerBlocks outer block) {a : Action} (ha : a ∈ block) : p.HasAction a

/-- An expression that stands by itself, at a node or in an action. -/
inductive Program.Evaluates (p : Program) : Expr → Prop
  | node {n : Node} (h : p.HasNode n) {e : Expr} (he : e ∈ n.exprs) : p.Evaluates e
  | action {a : Action} (h : p.HasAction a) {e : Expr} (he : e ∈ a.exprs) : p.Evaluates e

/-- An expression of a program, at any depth. -/
def Program.HasExpr (p : Program) (e : Expr) : Prop :=
  ∃ root, p.Evaluates root ∧ Holds Expr.operands root e

/-- A function that a program calls, in an action or in an expression. -/
inductive Program.Calls (p : Program) : String → Prop
  | action {function : String} {args : List Expr} (h : p.HasAction (.call function args)) :
    p.Calls function
  | expr {function : String} {args : List Expr} (h : p.HasExpr (.call function args)) : p.Calls function

/-! ### Sites -/

theorem Action.mem_ownSites {a : Action} {site : Site} :
    site ∈ a.ownSites ↔ site = .action a ∨ ∃ e ∈ a.exprs, site ∈ e.sites := by
  simp [ownSites, Expr.sitesOf]

/-- The sites of a node: the node, those of its expressions, the properties of a component, and at a
button its navigation, its handler and its block. -/
theorem Node.mem_ownSites {depth : Nat} {n : Node} {site : Site} :
    site ∈ n.ownSites depth ↔
      site = .node depth n ∨ (∃ e ∈ n.exprs, site ∈ e.sites) ∨
      (∃ name props, n = .component name props ∧ ∃ p ∈ props, site = .property name p.1) ∨
      ∃ label navigation handler actions, n = .button label navigation handler actions ∧
        ((∃ move, navigation = some move ∧ site ∈ (Action.navigate move).ownSites) ∨
          (∃ name, handler = some name ∧ site = .handler name) ∨
          site ∈ Action.blockSites depth 1 actions) := by
  cases n with
  | button label navigation handler actions =>
    simp [ownSites, exprs, Navigation.sites, Action.ownSites, Action.exprs, eq_comm]
  | component name props =>
    simp [ownSites, exprs, propSites]
    grind
  | _ => simp [ownSites, exprs, Expr.sitesOf]

namespace Program

variable {p : Program}

/-- The sites of a block that stands by itself are its blocks, each at its depth, its actions and their
expressions. -/
theorem Behaves.of_mem {under : Nat} {actions : List Action} (h : p.Behaves under actions) {site : Site}
    (hs : site ∈ Action.blockSites under 1 actions) :
    (∃ place block, partAt? Action.innerBlocks actions place = some block ∧
      site = .block under (1 + place.length)) ∨
      (∃ a, p.HasAction a ∧ site = .action a) ∨ ∃ root, p.Evaluates root ∧ site ∈ root.sites := by
  obtain ⟨place, block, hb, hs⟩ := Action.mem_blockSites.mp hs
  rcases List.mem_cons.mp hs with rfl | hs
  · exact .inl ⟨place, block, hb, rfl⟩
  · obtain ⟨a, ha, hs⟩ := List.mem_flatMap.mp hs
    have action : p.HasAction a := .block h ⟨place, hb⟩ ha
    rcases Action.mem_ownSites.mp hs with rfl | ⟨e, he, hs⟩
    · exact .inr (.inl ⟨a, action, rfl⟩)
    · exact .inr (.inr ⟨e, .action action he, hs⟩)

theorem Behaves.has {under : Nat} {actions : List Action} (h : p.Behaves under actions) {site : Site}
    (hs : site ∈ Action.blockSites under 1 actions) : p.Has site := by
  cases h with
  | button hm hn =>
    refine ⟨_, hm, List.mem_append_left _ (Node.mem_sites.mpr ⟨_, _, hn, Node.mem_ownSites.mpr ?_⟩)⟩
    exact .inr (.inr (.inr ⟨_, _, _, _, rfl, .inr (.inr hs)⟩))
  | handler hm hh => exact ⟨_, hm, List.mem_append_right _ (List.mem_flatMap.mpr ⟨_, hh, hs⟩)⟩

theorem HasNode.has {n : Node} (h : p.HasNode n) {site : Site}
    (hs : ∀ depth, site ∈ n.ownSites depth) : p.Has site := by
  obtain ⟨s, hm, place, hn⟩ := h
  exact ⟨s, hm, List.mem_append_left _ (Node.mem_sites.mpr ⟨place, n, hn, hs _⟩)⟩

theorem HasAction.has {a : Action} (h : p.HasAction a) {site : Site} (hs : site ∈ a.ownSites) :
    p.Has site := by
  cases h with
  | navigation hn =>
    refine hn.has fun depth => Node.mem_ownSites.mpr ?_
    exact .inr (.inr (.inr ⟨_, _, _, _, rfl, .inl ⟨_, rfl, hs⟩⟩))
  | block hb hi ha =>
    obtain ⟨place, hp⟩ := hi
    refine hb.has (Action.mem_blockSites.mpr ⟨place, _, hp, List.mem_cons_of_mem _ ?_⟩)
    exact List.mem_flatMap.mpr ⟨a, ha, hs⟩

theorem Evaluates.has {root : Expr} (h : p.Evaluates root) {site : Site} (hs : site ∈ root.sites) :
    p.Has site := by
  cases h with
  | node hn he => exact hn.has fun depth => Node.mem_ownSites.mpr (.inr (.inl ⟨root, he, hs⟩))
  | action ha he => exact ha.has (Action.mem_ownSites.mpr (.inr ⟨root, he, hs⟩))

/-- The sites of a program are its nodes, blocks and expressions, each at its depth, its actions, the
handlers that its buttons name and the properties of its components. -/
theorem has_iff {site : Site} :
    p.Has site ↔
      (∃ s ∈ p.screens, ∃ place n, partAt? Node.children s.ui place = some n ∧
        site = .node (1 + place.length) n) ∨
      (∃ label navigation name actions, p.HasNode (.button label navigation (some name) actions) ∧
        site = .handler name) ∨
      (∃ name props, p.HasNode (.component name props) ∧ ∃ e ∈ props, site = .property name e.1) ∨
      (∃ under actions, p.Behaves under actions ∧ ∃ place block,
        partAt? Action.innerBlocks actions place = some block ∧ site = .block under (1 + place.length)) ∨
      (∃ a, p.HasAction a ∧ site = .action a) ∨ ∃ root, p.Evaluates root ∧ site ∈ root.sites := by
  constructor
  · rintro ⟨s, hm, hs⟩
    -- a site belongs to a node of the tree or to a handler; what a block brings is told by itself
    rcases List.mem_append.mp hs with hs | hs
    · obtain ⟨place, n, hn, hs⟩ := Node.mem_sites.mp hs
      have node : p.HasNode n := ⟨s, hm, place, hn⟩
      rcases Node.mem_ownSites.mp hs with rfl | ⟨e, he, hs⟩ | ⟨name, props, rfl, e, he, rfl⟩ |
        ⟨label, navigation, handler, actions, rfl, ⟨move, rfl, own⟩ | ⟨name, rfl, rfl⟩ | inside⟩
      · exact .inl ⟨s, hm, place, n, hn, rfl⟩
      · exact .inr (.inr (.inr (.inr (.inr ⟨e, .node node he, hs⟩))))
      · exact .inr (.inr (.inl ⟨name, props, node, e, he, rfl⟩))
      · rcases Action.mem_ownSites.mp own with rfl | ⟨e, he, hs⟩
        · exact .inr (.inr (.inr (.inr (.inl ⟨_, .navigation node, rfl⟩))))
        · exact .inr (.inr (.inr (.inr (.inr ⟨e, .action (.navigation node) he, hs⟩))))
      · exact .inr (.inl ⟨label, navigation, name, actions, node, rfl⟩)
      · have behaviour : p.Behaves (1 + place.length) actions := .button hm hn
        rcases behaviour.of_mem inside with h | h
        · exact .inr (.inr (.inr (.inl ⟨_, _, behaviour, h⟩)))
        · exact .inr (.inr (.inr (.inr h)))
    · obtain ⟨h, hh, hs⟩ := List.mem_flatMap.mp hs
      have behaviour : p.Behaves 0 h.body := .handler hm hh
      rcases behaviour.of_mem hs with h | h
      · exact .inr (.inr (.inr (.inl ⟨_, _, behaviour, h⟩)))
      · exact .inr (.inr (.inr (.inr h)))
  -- every part brings its own site
  · rintro (⟨s, hm, place, n, hn, rfl⟩ | ⟨label, navigation, name, actions, hn, rfl⟩ |
      ⟨name, props, hn, e, he, rfl⟩ | ⟨under, actions, hb, place, block, hp, rfl⟩ | ⟨a, ha, rfl⟩ |
      ⟨root, hr, hs⟩)
    · refine ⟨s, hm, List.mem_append_left _ (Node.mem_sites.mpr ⟨place, n, hn, ?_⟩)⟩
      exact Node.mem_ownSites.mpr (.inl rfl)
    · refine hn.has fun depth => Node.mem_ownSites.mpr ?_
      exact .inr (.inr (.inr ⟨_, _, _, _, rfl, .inr (.inl ⟨name, rfl, rfl⟩)⟩))
    · exact hn.has fun depth => Node.mem_ownSites.mpr (.inr (.inr (.inl ⟨name, props, rfl, e, he, rfl⟩)))
    · exact hb.has (Action.mem_blockSites.mpr ⟨place, block, hp, List.mem_cons_self⟩)
    · exact ha.has (Action.mem_ownSites.mpr (.inl rfl))
    · exact hr.has hs

/-! ### Sites of one kind -/

theorem has_node {depth : Nat} {n : Node} :
    p.Has (.node depth n) ↔
      ∃ s ∈ p.screens, ∃ place, partAt? Node.children s.ui place = some n ∧ depth = 1 + place.length := by
  rw [has_iff]
  simp [Expr.mem_sites]

theorem exists_has_node {n : Node} : (∃ depth, p.Has (.node depth n)) ↔ p.HasNode n := by
  simp only [has_node, HasNode, Holds]
  constructor
  · rintro ⟨-, s, hs, place, hp, -⟩
    exact ⟨s, hs, place, hp⟩
  · rintro ⟨s, hs, place, hp⟩
    exact ⟨_, s, hs, place, hp, rfl⟩

theorem has_handler {name : String} :
    p.Has (.handler name) ↔
      ∃ label navigation actions, p.HasNode (.button label navigation (some name) actions) := by
  rw [has_iff]
  simp [Expr.mem_sites]

theorem has_property {component key : String} :
    p.Has (.property component key) ↔
      ∃ props, p.HasNode (.component component props) ∧ ∃ e ∈ props, e.1 = key := by
  rw [has_iff]
  simp [Expr.mem_sites]

theorem has_block {under depth : Nat} :
    p.Has (.block under depth) ↔
      ∃ actions, p.Behaves under actions ∧ ∃ place block,
        partAt? Action.innerBlocks actions place = some block ∧ depth = 1 + place.length := by
  rw [has_iff]
  simp [Expr.mem_sites]

theorem has_action {a : Action} : p.Has (.action a) ↔ p.HasAction a := by
  rw [has_iff]
  simp [Expr.mem_sites]

theorem has_expr {depth : Nat} {e : Expr} :
    p.Has (.expr depth e) ↔
      ∃ root, p.Evaluates root ∧ ∃ place, partAt? Expr.operands root place = some e ∧
        depth = 1 + place.length := by
  rw [has_iff]
  simp [Expr.mem_sites]

theorem exists_has_expr {e : Expr} : (∃ depth, p.Has (.expr depth e)) ↔ p.HasExpr e := by
  simp only [has_expr, HasExpr, Holds]
  constructor
  · rintro ⟨-, root, hr, place, hp, -⟩
    exact ⟨root, hr, place, hp⟩
  · rintro ⟨root, hr, place, hp⟩
    exact ⟨_, root, hr, place, hp, rfl⟩

end Program

end Screenplay
