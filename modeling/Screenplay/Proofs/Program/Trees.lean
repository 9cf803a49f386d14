/-
The measures of UI trees. Counting a tree with a list of pending nodes succeeds exactly if no node lies
deeper than the nesting ceiling, and then gives the size of the tree; and the depth at which a node is
visited by a walk over the tree is bounded by the height of the tree.
-/
import Screenplay.Program.Checks
import Screenplay.Program.Sites
import Screenplay.Proofs.Guard.Enforcement

namespace Screenplay.Node

/-! ## Heights -/

theorem height_pos (n : Node) : 0 < n.height := by
  cases n <;> simp only [height] <;> omega

theorem heightOfAll_le {k : Nat} {nodes : List Node} :
    heightOfAll nodes ≤ k ↔ ∀ n ∈ nodes, n.height ≤ k := by
  induction nodes with
  | nil => simp [heightOfAll]
  | cons n ns ih => rw [heightOfAll, Nat.max_le, ih, List.forall_mem_cons]

/-- A tree is one level higher than its highest child. -/
theorem height_le_succ {k : Nat} {n : Node} :
    n.height ≤ k + 1 ↔ ∀ child ∈ n.children, child.height ≤ k := by
  match n with
  | .container _ nodes =>
    rw [height, Nat.add_comm, Nat.add_le_add_iff_right, heightOfAll_le]
    rfl
  | .list _ template =>
    simp only [height, children, List.mem_singleton, forall_eq]
    omega
  | .conditional _ thenBranch none =>
    simp only [height, heightOfElse, children, List.mem_singleton, forall_eq]
    omega
  | .conditional _ thenBranch (some elseBranch) =>
    simp only [height, heightOfElse, children, List.forall_mem_cons, List.not_mem_nil,
      false_implies, implies_true, and_true]
    omega
  | .text .. | .button .. | .image .. | .input .. | .component .. => simp [height, children]

/-! ## Counting -/

/-- Counting pending nodes succeeds exactly if all trees below them end above the nesting ceiling, and
then it adds their sizes. -/
theorem countFrom_eq_ok {counted n : Nat} {pending : List (Nat × Node)} :
    countFrom counted pending = .ok n ↔
      (∀ e ∈ pending, e.1 + e.2.height ≤ maxDepth + 1) ∧
        n = counted + total (pending.map (·.2.size)) := by
  fun_induction countFrom counted pending with
  | case1 counted => simp [eq_comm]
  | case2 counted depth node pending deep =>
    have := height_pos node
    simp only [reduceCtorEq, List.forall_mem_cons, false_iff]
    rintro ⟨⟨h, -⟩, -⟩
    omega
  | case3 counted depth node pending deep ih =>
    -- the children stand one level deeper, and their trees are one level lower
    have below : (∀ e ∈ (node.children.map (depth + 1, ·)).reverse, e.1 + e.2.height ≤ maxDepth + 1) ↔
        depth + node.height ≤ maxDepth + 1 := by
      have step : depth + node.height ≤ maxDepth + 1 ↔ node.height ≤ (maxDepth - depth) + 1 := by
        omega
      rw [step, height_le_succ]
      simp only [List.mem_reverse, List.forall_mem_map]
      refine forall₂_congr fun child _ => ?_
      omega
    have sizes : total (((node.children.map (depth + 1, ·)).reverse).map (·.2.size)) + 1 = node.size := by
      rw [size_eq, List.map_reverse, total_reverse, List.map_map, Nat.add_comm]
      rfl
    rw [ih, List.forall_mem_append, below, List.forall_mem_cons, List.map_append, total_append,
      List.map_cons, total_cons, ← sizes]
    refine and_congr_right fun _ => ?_
    constructor <;> intro h <;> omega

/-- A tree is counted exactly if it is no higher than the nesting ceiling, and then its number of nodes
is its size. -/
theorem count_eq_ok {ui : Node} {n : Nat} :
    ui.count = .ok n ↔ ui.height ≤ maxDepth ∧ n = ui.size := by
  rw [count, countFrom_eq_ok]
  simp only [List.mem_singleton, forall_eq, List.map_cons, List.map_nil, total_cons,
    total_nil, Nat.add_zero, Nat.zero_add]
  refine and_congr_left fun _ => ?_
  omega

/-! ## Depths of visited nodes -/

theorem not_mem_exprSites {depth : Nat} {n : Node} {e : Expr} : Site.node depth n ∉ e.sites := by
  simp [Expr.sites]

theorem not_mem_sitesOfExprs {depth : Nat} {n : Node} {es : List Expr} :
    Site.node depth n ∉ Expr.sitesOf es := by
  simp [Expr.sitesOf, not_mem_exprSites]

mutual

theorem not_mem_actionSites {depth under level : Nat} {n : Node} :
    ∀ a : Action, Site.node depth n ∉ Action.sites under level a
  | .navigate _ => by simp [Action.sites, Navigation.sites, not_mem_sitesOfExprs]
  | .update .. => by simp [Action.sites, not_mem_exprSites]
  | .call .. => by simp [Action.sites, not_mem_sitesOfExprs]
  | .branch _ thenActions elseActions => by
    simp [Action.sites, not_mem_exprSites, not_mem_actionSitesOf thenActions,
      not_mem_actionSitesOf elseActions]
  | .loop _ _ body => by simp [Action.sites, not_mem_actionSitesOf body]
  | .code _ => by simp [Action.sites]

theorem not_mem_actionSitesOf {depth under level : Nat} {n : Node} :
    ∀ as : List Action, Site.node depth n ∉ Action.sitesOf under level as
  | [] => List.not_mem_nil
  | a :: as => by simp [Action.sitesOf, not_mem_actionSites a, not_mem_actionSitesOf as]

end

mutual

/-- A node that is visited in a tree ends no lower than the tree does. -/
theorem depth_add_height_le {depth level : Nat} {n : Node} :
    ∀ tree : Node, Site.node depth n ∈ tree.sites level → depth + n.height ≤ level + tree.height
  | .container layout nodes, h => by
    rw [sites, List.mem_cons] at h
    -- the node itself, or one among the children, which stand one level down in a tree that is one lower
    rcases h with he | h
    · cases he
      exact Nat.le_refl _
    · have := depth_add_heightOfAll_le nodes h
      rw [height]
      omega
  | .list binding template, h => by
    rw [sites, List.mem_cons] at h
    rcases h with he | h
    · cases he
      exact Nat.le_refl _
    · have := depth_add_height_le template h
      rw [height]
      omega
  | .conditional condition thenBranch elseBranch, h => by
    simp only [sites, List.cons_append, List.mem_cons, List.mem_append, not_mem_exprSites,
      false_or] at h
    rcases h with he | h | h
    · cases he
      exact Nat.le_refl _
    · have := depth_add_height_le thenBranch h
      rw [height]
      omega
    · have := depth_add_heightOfElse_le elseBranch h
      rw [height]
      omega
  | .text _ content, h => by
    simp only [sites, List.mem_cons, not_mem_exprSites, or_false] at h
    cases h
    exact Nat.le_refl _
  | .button label navigation handler actions, h => by
    simp only [sites, Action.blockSites, List.cons_append, List.mem_cons, List.mem_append,
      List.mem_flatMap, List.mem_map, reduceCtorEq, and_false, exists_false,
      not_mem_actionSitesOf, or_false] at h
    rcases h with he | ⟨n, -, hn⟩
    · cases he
      exact Nat.le_refl _
    · exact absurd hn (by simp [Navigation.sites, not_mem_sitesOfExprs])
  | .image _, h | .input .., h => by
    simp only [sites, List.mem_singleton] at h
    cases h
    exact Nat.le_refl _
  | .component name props, h => by
    simp only [sites, propSites, List.mem_cons, List.mem_flatMap, reduceCtorEq, not_mem_exprSites,
      or_self, and_false, exists_false, or_false] at h
    cases h
    exact Nat.le_refl _

theorem depth_add_heightOfAll_le {depth level : Nat} {n : Node} :
    ∀ nodes : List Node, Site.node depth n ∈ sitesOf level nodes →
      depth + n.height ≤ level + heightOfAll nodes
  | tree :: nodes, h => by
    rw [sitesOf, List.mem_append] at h
    rcases h with h | h
    · have := depth_add_height_le tree h
      rw [heightOfAll]
      omega
    · have := depth_add_heightOfAll_le nodes h
      rw [heightOfAll]
      omega

theorem depth_add_heightOfElse_le {depth level : Nat} {n : Node} :
    ∀ node : Option Node, Site.node depth n ∈ sitesOfElse level node →
      depth + n.height ≤ level + heightOfElse node
  | some tree, h => depth_add_height_le tree h

end

/-- No node of a tree that is no higher than the nesting ceiling is visited below that ceiling. -/
theorem depth_le_maxDepth {ui : Node} (hh : ui.height ≤ maxDepth) {depth : Nat} {n : Node}
    (h : Site.node depth n ∈ ui.sites 1) : depth ≤ maxDepth := by
  have := depth_add_height_le ui h
  have := height_pos n
  omega

end Node

/-- Nor is a node of a screen with such a tree: in its handlers there are none. -/
theorem Screen.depth_le_maxDepth {s : Screen} (hh : s.ui.height ≤ maxDepth) {depth : Nat} {n : Node}
    (h : Site.node depth n ∈ s.sites) : depth ≤ maxDepth := by
  rcases List.mem_append.mp h with ui | handlers
  · exact Node.depth_le_maxDepth hh ui
  · obtain ⟨handler, -, hm⟩ := List.mem_flatMap.mp handlers
    rcases List.mem_cons.mp hm with he | hm
    · cases he
    · exact absurd hm (Node.not_mem_actionSitesOf _)

/-! ## Trees under a guard -/

namespace Guard

@[simp] theorem checkTree_policy (guard : Guard) (screen : String) (ui : Node) :
    (guard.checkTree screen ui).2.policy = guard.policy := by
  unfold checkTree
  split
  · rfl
  · exact check_policy _ _

theorem checkScreen_policy (guard : Guard) (screen : Screen) :
    (guard.checkScreen screen).2.policy = guard.policy := by
  have kept := guard.check_policy screen.checks
  unfold checkScreen
  rcases hc : guard.check screen.checks with ⟨violation | ⟨⟩, after⟩ <;> rw [hc] at kept
  · exact kept
  · exact (after.checkTree_policy screen.name screen.ui).trans kept

/-- A tree passes a guard exactly if it is no higher and no larger than the ceilings allow. -/
theorem checkTree_eq_ok {guard : Guard} {screen : String} {ui : Node} :
    (guard.checkTree screen ui).1 = .ok () ↔ ui.height ≤ maxDepth ∧ ui.size ≤ guard.policy.maxElements := by
  unfold checkTree
  cases hc : ui.count with
  | error violation =>
    have high : ¬ ui.height ≤ maxDepth := by
      intro hh
      rw [Node.count_eq_ok.mpr ⟨hh, rfl⟩] at hc
      cases hc
    simp [high]
  | ok n =>
    obtain ⟨hh, rfl⟩ := Node.count_eq_ok.mp hc
    simp [check_eq_ok, Check.elementCount, Policy.ceiling, hh]

end Guard

end Screenplay
