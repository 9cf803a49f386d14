/-
Vetted programs: what a program has passed once it is read. Every place of a program has checks of its
own, one list for each kind of site; a vetted program passes the checks of all its sites, names and
values, and stays within the ceilings on its counts. It says nothing about how the program was read. A
guard with the same policy lets a vetted program and its screens pass.
-/
import Screenplay.Proofs.Guard.Admission
import Screenplay.Proofs.Program.Trees

namespace Screenplay

/-! ## Checks of single places -/

/-- What a node of an expression has to pass, its operands apart. -/
def Expr.checks : Expr → List Check
  | .literal value => Check.value "string literal" 0 value
  | .var name | .field _ name | .call name _ => [.text name "identifier"]
  | .not _ | .binary .. | .interpolation _ => []

/-- What an action has to pass, its blocks and expressions apart. -/
def Action.checks : Action → List Check
  | .navigate n =>
    [.limit "navigation target length" n.target.length maxTarget, .text n.target "navigation target"]
  | .update name .. => Check.stateName name
  | .call function args =>
    [.text function "function call", .limit "function call arguments" args.length maxArguments]
  | .branch .. => []
  | .loop name _ body =>
    Check.stateName name ++ [.limit "loop body actions" body.length maxLoopBody]
  | .code text => Check.string text "action code"

/-- What a node of a UI tree has to pass, everything inside it apart. -/
def Node.checks : Node → List Check
  | .button label .. =>
    [.limit "button label length" label.length maxButtonLabel, .text label "button label"]
  | .image source =>
    [.limit "image source length" source.length maxImageSource, .text source "image source"]
  | .input label binding => Check.string label "input label" ++ Check.stateName binding
  | .list binding _ => Check.stateName binding
  | .component name _ => [.text name "component name"]
  | .container .. | .text .. | .conditional .. => []

/-- What a site has to pass. -/
def Site.checks : Site → List Check
  | .node _ n => n.checks
  | .handler name => [.text name "action reference"]
  | .property _ key => [.text key "component property"]
  | .block _ depth => [.limit "action nesting depth" depth maxDepth]
  | .action a => a.checks
  | .expr _ e => e.checks

/-- A text that is among checks that pass is clean. -/
theorem Check.clean_of_mem {policy : Policy} {cs : List Check} (h : ∀ c ∈ cs, c.Passes policy)
    {text : String} (place : String) (hm : Check.text text place ∈ cs) :
    policy.findBlocked text = none :=
  Check.passes_text.mp (h _ hm)

/-- A site that passes its checks under a policy. -/
def Site.Vetted (policy : Policy) (site : Site) : Prop := ∀ c ∈ site.checks, c.Passes policy

/-! ## Expressions -/

namespace Expr

mutual

/-- Every node of an expression has a property. -/
def Every (P : Expr → Prop) : Expr → Prop
  | .literal value => P (.literal value)
  | .var name => P (.var name)
  | .field target name => P (.field target name) ∧ Every P target
  | .not operand => P (.not operand) ∧ Every P operand
  | .binary op left right => P (.binary op left right) ∧ Every P left ∧ Every P right
  | .call name args => P (.call name args) ∧ EveryOf P args
  | .interpolation parts => P (.interpolation parts) ∧ EveryOf P parts

/-- Every node of some expressions has a property. -/
def EveryOf (P : Expr → Prop) : List Expr → Prop
  | [] => True
  | e :: es => Every P e ∧ EveryOf P es

end

variable {P : Expr → Prop}

theorem everyOf_iff {es : List Expr} : EveryOf P es ↔ ∀ e ∈ es, e.Every P := by
  induction es with
  | nil => simp [EveryOf]
  | cons e es ih => rw [EveryOf, ih, List.forall_mem_cons]

mutual

theorem every_iff_nodes (depth : Nat) : ∀ e : Expr, e.Every P ↔ ∀ n ∈ e.nodes depth, P n.2
  | .literal _ | .var _ => by simp [Every, nodes]
  | .field target _ => by
    simp only [Every, nodes, List.forall_mem_cons, every_iff_nodes (depth + 1) target]
  | .not operand => by
    simp only [Every, nodes, List.forall_mem_cons, every_iff_nodes (depth + 1) operand]
  | .binary _ left right => by
    simp only [Every, nodes, List.cons_append, List.forall_mem_cons, List.forall_mem_append,
      every_iff_nodes (depth + 1) left, every_iff_nodes (depth + 1) right]
  | .call _ args => by
    simp only [Every, nodes, List.forall_mem_cons, everyOf_iff_nodes (depth + 1) args]
  | .interpolation parts => by
    simp only [Every, nodes, List.forall_mem_cons, everyOf_iff_nodes (depth + 1) parts]

theorem everyOf_iff_nodes (depth : Nat) :
    ∀ es : List Expr, EveryOf P es ↔ ∀ n ∈ nodesOf depth es, P n.2
  | [] => by simp [EveryOf, nodesOf]
  | e :: es => by
    simp only [EveryOf, nodesOf, List.forall_mem_append, every_iff_nodes depth e,
      everyOf_iff_nodes depth es]

end

/-- An expression all of whose nodes pass their checks. -/
def Vetted (policy : Policy) : Expr → Prop := Every fun e => ∀ c ∈ e.checks, c.Passes policy

/-- The sites of an expression pass their checks exactly if its nodes do. -/
theorem vetted_iff_sites {policy : Policy} {e : Expr} :
    e.Vetted policy ↔ ∀ site ∈ e.sites, site.Vetted policy := by
  rw [Vetted, every_iff_nodes 1, sites, List.forall_mem_map]
  exact forall₂_congr fun _ _ => Iff.rfl

theorem vetted_iff_sitesOf {policy : Policy} {es : List Expr} :
    (∀ e ∈ es, e.Vetted policy) ↔ ∀ site ∈ sitesOf es, site.Vetted policy := by
  simp only [vetted_iff_sites, sitesOf, List.mem_flatMap]
  constructor
  · rintro h site ⟨e, he, hs⟩
    exact h e he site hs
  · rintro h e he site hs
    exact h site ⟨e, he, hs⟩

end Expr

/-! ## Programs -/

/-- A site of one of the screens of a program. -/
def Program.Has (p : Program) (site : Site) : Prop := ∃ s ∈ p.screens, site ∈ s.sites

section

variable (policy : Policy)

/-- A name that a variable may have. -/
def Policy.AdmitsName (name : String) : Prop := ∀ c ∈ Check.stateName name, c.Passes policy

theorem Policy.AdmitsName.clean {policy : Policy} {name : String} (h : policy.AdmitsName name) :
    policy.findBlocked name = none :=
  Check.clean_of_mem h (Check.statePlace name) (by simp [Check.stateName])

/-- A data model whose names and values pass their checks. -/
structure DataModel.Vetted (m : DataModel) : Prop where
  name : policy.findBlocked m.name = none
  names : ∀ f ∈ m.fields, policy.AdmitsName f.name
  defaults : ∀ f ∈ m.fields, f.default.Admitted policy 0

/-- A screen that passes all its checks and stays within the ceilings on its UI tree. -/
structure Screen.Vetted (s : Screen) : Prop where
  name : policy.findBlocked s.name = none
  params : ∀ param ∈ s.params, policy.AdmitsName param.name
  state : ∀ v ∈ s.state, policy.Admits v.name v.value
  handlers : ∀ h ∈ s.handlers, policy.findBlocked h.name = none
  sites : ∀ site ∈ s.sites, site.Vetted policy
  height : s.ui.height ≤ maxDepth
  size : s.ui.size ≤ policy.maxElements

/-- A program that passes all its checks and stays within the ceilings on its counts. -/
structure Program.Vetted (p : Program) : Prop where
  name : ∀ c ∈ Check.appName p.name, c.Passes policy
  start : policy.findBlocked p.start = none
  imports : ∀ path ∈ p.imports, ∀ c ∈ Check.string path "import path", c.Passes policy
  models : ∀ m ∈ p.models, m.Vetted policy
  state : ∀ v ∈ p.state, policy.Admits v.name v.value
  screens : ∀ s ∈ p.screens, s.Vetted policy
  screenCount : p.screens.length ≤ policy.maxScreens
  stateCount : p.stateCount ≤ policy.maxStateVariables

end

/-! ## Programs under a guard -/

section

variable {policy : Policy}

theorem StateVar.passes_checksOf {vs : List StateVar} (h : ∀ v ∈ vs, policy.Admits v.name v.value) :
    ∀ c ∈ StateVar.checksOf vs, c.Passes policy := by
  rintro c hc
  obtain ⟨v, hv, hc⟩ := List.mem_flatMap.mp hc
  exact Check.passes_state.mpr (h v hv) c hc

theorem Program.Vetted.checks {p : Program} (hp : p.Vetted policy) :
    ∀ c ∈ p.checks, c.Passes policy := by
  refine List.forall_mem_append.mpr ⟨List.forall_mem_append.mpr ⟨hp.name, ?_⟩, ?_⟩
  · have screens := hp.screenCount
    have state := hp.stateCount
    simp only [List.forall_mem_cons, Check.screenCount, Check.stateCount, Check.passes_capped,
      Policy.ceiling]
    exact ⟨by omega, by omega, fun _ h => absurd h List.not_mem_nil⟩
  · exact StateVar.passes_checksOf hp.state

theorem Screen.Vetted.checks {s : Screen} (hs : s.Vetted policy) : ∀ c ∈ s.checks, c.Passes policy :=
  List.forall_mem_cons.mpr ⟨Check.passes_text.mpr hs.name, StateVar.passes_checksOf hs.state⟩

/-- A guard refuses a screen if it refuses one of its checks, or its tree. -/
theorem Guard.checkScreen_eq_error {guard : Guard} {s : Screen} {v : Violation}
    (h : (guard.checkScreen s).1 = .error v) :
    (guard.check s.checks).1 = .error v ∨
      ∃ after : Guard, after.policy = guard.policy ∧ (after.checkTree s.name s.ui).1 = .error v := by
  unfold checkScreen at h
  split at h
  next after hc =>
    refine .inr ⟨after, ?_, h⟩
    rw [← check_policy guard s.checks, hc]
  · exact .inl h

/-- A vetted screen is refused for hits only. -/
theorem Screen.Vetted.denied {s : Screen} (hs : s.Vetted policy) {guard : Guard}
    (same : guard.policy.ceiling = policy.ceiling) {v : Violation}
    (h : (guard.checkScreen s).1 = .error v) : ∃ pattern place, v = .denied pattern place := by
  rcases Guard.checkScreen_eq_error h with hc | ⟨after, ha, hc⟩
  · refine Guard.check_error_of_no_breach (fun c hm => ?_) hc
    exact (Check.breach?_congr same c).trans (hs.checks c hm).1
  · have small : s.ui.size ≤ after.policy.maxElements := by
      rw [ha]
      exact Nat.le_trans hs.size (Nat.le_of_eq (congrFun same .elements).symm)
    rw [Guard.checkTree_eq_ok.mpr ⟨hs.height, small⟩] at hc
    cases hc

/-- The guard that has vetted a screen lets it pass. -/
theorem Screen.Vetted.passes {s : Screen} {guard : Guard} (hs : s.Vetted guard.policy.enforced) :
    (guard.checkScreen s).1 = .ok () := by
  have checked : (guard.check s.checks).1 = .ok () := Guard.check_eq_ok.mpr hs.checks
  unfold Guard.checkScreen
  rcases hc : guard.check s.checks with ⟨v | ⟨⟩, after⟩
  · rw [hc] at checked
    cases checked
  · have same : after.policy = guard.policy := by rw [← Guard.check_policy guard s.checks, hc]
    refine Guard.checkTree_eq_ok.mpr ⟨hs.height, ?_⟩
    rw [same, ← Policy.maxElements_enforced]
    exact hs.size

/-- Every site of a vetted program is vetted. -/
theorem Program.Vetted.site {p : Program} (hp : p.Vetted policy) {site : Site} (h : p.Has site) :
    site.Vetted policy := by
  obtain ⟨s, hs, hm⟩ := h
  exact (hp.screens s hs).sites site hm

/-- No node of a vetted program lies below the nesting ceiling. -/
theorem Program.Vetted.depth_le {p : Program} (hp : p.Vetted policy) {depth : Nat} {n : Node}
    (h : p.Has (.node depth n)) : depth ≤ maxDepth := by
  obtain ⟨s, hs, hm⟩ := h
  exact Screen.depth_le_maxDepth (hp.screens s hs).height hm

end

end Screenplay
