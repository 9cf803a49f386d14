/-
The depth and the size of UI trees. A guard measures a tree with a stack of pending nodes, which it takes up in
another order than the analysis and the run, which walk over the tree from the first child to the last. It comes to
the height of the tree and to the number of nodes that the analysis visits, and a run does not find a tree too deep
that the guard has let pass.
-/
import Screenplay.Proofs.Report.Exact
import Screenplay.Proofs.Run.Traversal
import Screenplay.Proofs.Store.Writes

namespace Screenplay

/-! ## Trees that a guard refuses -/

namespace Node

/-- The trees on the stack stand at most one level below the nesting ceiling, so that is the depth of the first node
found too deep. -/
theorem countFrom_eq_error {counted : Nat} {pending : List (Nat × Node)} {violation : Violation}
    (near : ∀ e ∈ pending, e.1 ≤ maxDepth + 1) (h : countFrom counted pending = .error violation) :
    violation = .limit "UI nesting depth" (maxDepth + 1) maxDepth := by
  fun_induction countFrom counted pending with
  | case1 => cases h
  | case2 counted depth node pending deep =>
    have here : depth = maxDepth + 1 := Nat.le_antisymm (near _ List.mem_cons_self) deep
    cases h
    rw [here]
    rfl
  | case3 counted depth node pending shallow ih =>
    rw [List.forall_mem_cons] at near
    refine ih (List.forall_mem_append.mpr ⟨?_, near.2⟩) h
    simp only [List.mem_reverse, List.forall_mem_map]
    intro child _
    omega

/-- A tree is counted, unless it is higher than the nesting ceiling. -/
theorem count_eq (ui : Node) :
    ui.count =
      if ui.height ≤ maxDepth then .ok ui.size else .error (.limit "UI nesting depth" (maxDepth + 1) maxDepth) := by
  split
  · next low => exact count_eq_ok.mpr ⟨low, rfl⟩
  · next high =>
    cases hc : ui.count with
    | ok n => exact absurd (count_eq_ok.mp hc).1 high
    | error violation =>
      have near : ∀ e ∈ [(1, ui)], e.1 ≤ maxDepth + 1 :=
        List.forall_mem_singleton.mpr (Nat.succ_le_succ (Nat.zero_le _))
      rw [countFrom_eq_error near hc]

end Node

/-! ## Errors of a run -/

/-- A check that never finds the depth of a UI tree wrong. -/
def Check.NotDepth (c : Check) : Prop :=
  ∀ policy depth ceiling, c.breach? policy ≠ some (.limit "UI nesting depth" depth ceiling)

/-- An error other than that of a UI tree that is nested too deeply. -/
def RunError.NotDepth (e : RunError) : Prop :=
  ∀ depth ceiling, e ≠ .refused (.limit "UI nesting depth" depth ceiling)

namespace Check

theorem notDepth_limit {entity : String} (h : entity ≠ "UI nesting depth") (current ceiling : Int) :
    (limit entity current ceiling).NotDepth := by
  intro policy depth other
  simp [breach?, h]

theorem notDepth_capped {entity : String} (h : entity ≠ "UI nesting depth") (ceiling : Ceiling) (current : Int) :
    (capped ceiling entity current).NotDepth := by
  intro policy depth other
  simp [breach?, h]

theorem notDepth_text (t place : String) : (text t place).NotDepth := nofun

theorem notDepth_name (n : String) : (name n).NotDepth := by
  intro policy depth other
  rw [breach?]
  split <;> rintro ⟨⟩

theorem notDepth_string (t place : String) : ∀ c ∈ string t place, c.NotDepth := by
  simp [string, notDepth_capped, notDepth_text]

theorem notDepth_elementCount (screen : String) (count : Int) : (elementCount screen count).NotDepth := by
  refine notDepth_capped (fun same => ?_) _ _
  have same := congrArg String.toList same
  simp [toString] at same

mutual

theorem notDepth_value (place : String) (depth : Nat) : ∀ v : Value, ∀ c ∈ value place depth v, c.NotDepth
  | .text t => List.forall_mem_cons.mpr ⟨notDepth_limit (by decide) _ _, notDepth_string t place⟩
  | .list items =>
    List.forall_mem_cons.mpr ⟨notDepth_limit (by decide) _ _,
      List.forall_mem_cons.mpr ⟨notDepth_limit (by decide) _ _, notDepth_values place (depth + 1) items⟩⟩
  | .map entries =>
    List.forall_mem_cons.mpr ⟨notDepth_limit (by decide) _ _,
      List.forall_mem_cons.mpr ⟨notDepth_limit (by decide) _ _, notDepth_entryValues place (depth + 1) entries⟩⟩
  | .null | .bool _ | .int _ | .float _ => List.forall_mem_singleton.mpr (notDepth_limit (by decide) _ _)

theorem notDepth_values (place : String) (depth : Nat) : ∀ vs : List Value, ∀ c ∈ values place depth vs, c.NotDepth
  | [] => List.forall_mem_nil _
  | v :: vs => List.forall_mem_append.mpr ⟨notDepth_value place depth v, notDepth_values place depth vs⟩

theorem notDepth_entryValues (place : String) (depth : Nat) :
    ∀ es : List (String × Value), ∀ c ∈ entryValues place depth es, c.NotDepth
  | [] => List.forall_mem_nil _
  | (k, v) :: es =>
    List.forall_mem_cons.mpr ⟨notDepth_text k place,
      List.forall_mem_append.mpr ⟨notDepth_value place depth v, notDepth_entryValues place depth es⟩⟩

end

theorem notDepth_state (n : String) (v : Value) : ∀ c ∈ state n v, c.NotDepth := by
  refine List.forall_mem_append.mpr ⟨?_, notDepth_value _ 0 v⟩
  simp [stateName, notDepth_limit, notDepth_name, notDepth_text]

end Check

theorem StateVar.notDepth_checksOf (vs : List StateVar) : ∀ c ∈ checksOf vs, c.NotDepth := by
  intro c hc
  obtain ⟨v, -, hc⟩ := List.mem_flatMap.mp hc
  exact Check.notDepth_state v.name v.value c hc

theorem Program.notDepth_checks (p : Program) : ∀ c ∈ p.checks, c.NotDepth := by
  refine List.forall_mem_append.mpr ⟨List.forall_mem_append.mpr ⟨?_, ?_⟩, StateVar.notDepth_checksOf p.state⟩
  · simp [Check.appName, Check.notDepth_limit, Check.notDepth_text]
  · simp [Check.screenCount, Check.stateCount, Check.notDepth_capped]

theorem Screen.notDepth_checks (s : Screen) : ∀ c ∈ s.checks, c.NotDepth :=
  List.forall_mem_cons.mpr ⟨Check.notDepth_text s.name _, StateVar.notDepth_checksOf s.state⟩

namespace Guard

/-- What a guard finds wrong is what one of the checks looks for. -/
theorem notDepth_of_check {guard : Guard} {cs : List Check} (h : ∀ c ∈ cs, c.NotDepth) {violation : Violation}
    (refused : (guard.check cs).1 = .error violation) : (RunError.refused violation).NotDepth := by
  rintro depth ceiling ⟨⟩
  rcases check_eq_error refused with ⟨c, hc, breach⟩ | ⟨pattern, place, hit⟩
  · exact h c hc _ _ _ breach
  · cases hit

/-- What a guard makes of a tree is told by the height of the tree first, and by its number of nodes then. -/
theorem checkTree_eq (guard : Guard) (name : String) (ui : Node) :
    guard.checkTree name ui =
      if ui.height ≤ maxDepth then guard.check [Check.elementCount name ui.size]
      else (.error (.limit "UI nesting depth" (maxDepth + 1) maxDepth), guard) := by
  rw [checkTree, Node.count_eq]
  by_cases low : ui.height ≤ maxDepth
  · rw [if_pos low, if_pos low]
  · rw [if_neg low, if_neg low]

end Guard

/-! ## Walks -/

namespace Run

theorem check_notDepth {cs : List Check} (h : ∀ c ∈ cs, c.NotDepth) :
    Safe (fun _ => True) RunError.NotDepth (check cs) :=
  .check cs (fun _ _ => trivial) fun _ _ _ refused => Guard.notDepth_of_check h refused

theorem log_notDepth (kind : EventKind) (detail : String) :
    Safe (fun _ => True) RunError.NotDepth (log kind detail) :=
  .modify fun _ _ => trivial

theorem write_notDepth (name : String) (value : Value) :
    Safe (fun _ => True) RunError.NotDepth (write name value) := by
  refine .write (fun _ _ _ _ => trivial) (fun s _ => ⟨trivial, fun e he => ?_⟩) (log_notDepth _ _)
  rcases Store.set_error he with ⟨violation, refused, rfl⟩ | ⟨l, -, other, -, rfl⟩
  · exact Guard.notDepth_of_check (Check.notDepth_state name value) refused
  · exact nofun

theorem arguments_notDepth (args : List Expr) : Safe (fun _ => True) RunError.NotDepth (arguments args) :=
  .arguments (fun _ _ _ _ => trivial)
    (fun text => check_notDepth (List.forall_mem_singleton.mpr (Check.notDepth_text text _)))
    (fun _ _ => nofun) args

/-- Where the trees of all screens are low enough, no step of a run finds a tree too deep. -/
theorem steps_notDepth {p : Program} (low : ∀ s ∈ p.screens, s.ui.height ≤ maxDepth) :
    Steps p (fun _ => True) RunError.NotDepth where
  outside _ _ _ _ := trivial
  cancelled := nofun
  timedOut _ := nofun
  outOfMemory _ _ := nofun
  status _ := .modify fun _ _ => trivial
  accept _ := .accept (check_notDepth p.notDepth_checks) fun _ _ => nofun
  -- a screen is refused by one of its checks or for its tree, which is low enough
  screen s hs := by
    refine .settle (·.checkScreen s) (fun _ _ => trivial) fun _ _ violation refused => ?_
    rcases Guard.checkScreen_eq_error refused with refused | ⟨after, -, refused⟩
    · exact Guard.notDepth_of_check s.notDepth_checks refused
    · rw [Guard.checkTree_eq, if_pos (low s hs)] at refused
      exact Guard.notDepth_of_check (List.forall_mem_singleton.mpr (Check.notDepth_elementCount _ _)) refused
  appState v _ := .writeMissing (write_notDepth v.name v.value)
  screenState _ _ v _ := .writeMissing (write_notDepth v.name v.value)
  node depth n h := .checkDepth fun deep => by
    obtain ⟨s, hs, hm⟩ := h
    exact absurd (Screen.depth_le_maxDepth (low s hs) hm) (Nat.not_le_of_lt deep)
  rendered _ := log_notDepth _ _
  tracked _ := .modify fun _ _ => trivial
  input _ _ binding _ := .writeMissing (write_notDepth binding _)
  list _ binding _ _ := .writeMissing (write_notDepth binding _)
  missing _ _ _ _ _ := nofun
  block _ _ _ := .checkDepth fun _ => by simp [RunError.NotDepth]
  executed _ _ := log_notDepth _ _
  navigate n _ := .navigate (fun _ => nofun)
    (check_notDepth (List.forall_mem_singleton.mpr (Check.notDepth_text n.target _))) (arguments_notDepth n.args)
    (fun _ _ => trivial) (log_notDepth _ _)
  update name _ _ _ _ := .update (fun _ _ _ _ => trivial) (fun _ => log_notDepth _ _)
    (fun _ => check_notDepth (Check.notDepth_string _ _)) fun _ _ _ _ => write_notDepth name _
  call function args _ := .call
    (check_notDepth (List.forall_mem_singleton.mpr (Check.notDepth_text function _))) (fun _ => nofun)
    (arguments_notDepth args) fun _ => log_notDepth _ _
  code text _ := .skipCode (check_notDepth (Check.notDepth_string text _)) fun _ => log_notDepth _ _
  largeLoop _ _ _ _ _ := nofun
  invalidRange _ _ _ _ _ := nofun
  counted name _ _ _ _ := write_notDepth name _

/-- A walk over a tree that a guard lets pass does not stop because the tree is too deep. -/
theorem walk_notDepth {screen : Screen} (low : screen.ui.height ≤ maxDepth)
    (pressing : Bool) : Safe (fun _ => True) RunError.NotDepth (walk screen 1 pressing screen.ui) := by
  -- the screen as the only one of a program
  have steps := steps_notDepth (p := ⟨"", "", [screen], [], [], []⟩) (List.forall_mem_singleton.mpr low)
  exact steps.walk List.mem_cons_self 1 pressing screen.ui fun site hm => List.mem_append_left _ hm

end Run

namespace Guard

/-- The check of a tree with a stack agrees with the walks over the tree. A guard lets exactly the trees pass that
are no higher than the ceiling allows and have no more nodes than its policy does; one that is too high is refused for
its depth, however many nodes it has; the number that is compared with the ceiling is that of the nodes which the
analysis visits; and a run that walks over a tree that has passed does not stop because of its depth. -/
theorem checkTree_agrees (guard : Guard) (name : String) (ui : Node) :
    ((guard.checkTree name ui).1 = .ok () ↔ ui.height ≤ maxDepth ∧ ui.size ≤ guard.policy.maxElements) ∧
    (maxDepth < ui.height →
      guard.checkTree name ui = (.error (.limit "UI nesting depth" (maxDepth + 1) maxDepth), guard)) ∧
    (ui.height ≤ maxDepth →
      guard.checkTree name ui =
        guard.check [Check.elementCount name ((ui.sites 1).filterMap Site.node?).length]) ∧
    ((guard.checkTree name ui).1 = .ok () →
      ∀ screen : Screen, screen.ui = ui → ∀ (pressing : Bool) (s : RunState) (depth ceiling : Int),
        (Run.walk screen 1 pressing ui s).1 ≠ .error (.error (.refused (.limit "UI nesting depth" depth ceiling)))) := by
  refine ⟨checkTree_eq_ok, fun high => ?_, fun low => ?_, fun passed => ?_⟩
  · rw [checkTree_eq, if_neg (Nat.not_le_of_lt high)]
  · rw [checkTree_eq, if_pos low, Node.length_nodes]
  · rintro screen rfl pressing s depth ceiling stopped
    exact (Run.walk_notDepth (checkTree_eq_ok.mp passed).1 pressing s trivial).2 _ stopped depth ceiling rfl

end Guard

end Screenplay
