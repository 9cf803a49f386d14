/-
The way of a run through a program. A run visits only sites of the program, so it is safe if every step
that it can take at some site is: the accepted program, the declared state, the nodes, blocks and actions
of its screens. The steps are the premises, one for each kind of thing that a run does; the induction
follows the interpreter once, for all properties of states and errors.
-/
import Screenplay.Proofs.Program.Vetted
import Screenplay.Proofs.Run.Safe

namespace Screenplay

/-- The steps that a run of a program can take, all safe for a property of states and one of errors. -/
structure Steps (p : Program) (I : RunState → Prop) (E : RunError → Prop) : Prop where
  outside : Run.Detached I
  cancelled : E .cancelled
  timedOut : ∀ seconds, E (.timedOut seconds)
  outOfMemory : ∀ used allowed, E (.outOfMemory used allowed)
  status : ∀ status, Run.Safe I E (Run.setStatus status)
  accept : ∀ risk, Run.Safe I E (Run.accept p risk)
  screen : ∀ s ∈ p.screens, Run.Safe I E do Run.settle ((← get).engine.guard.checkScreen s)
  appState : ∀ v ∈ p.state, Run.Safe I E (Run.writeMissing v.name v.value)
  screenState : ∀ s ∈ p.screens, ∀ v ∈ s.state, Run.Safe I E (Run.writeMissing v.name v.value)
  node : ∀ depth n, p.Has (.node depth n) → Run.Safe I E (Run.checkDepth "UI nesting depth" depth)
  rendered : ∀ kind, Run.Safe I E (Run.log .uiRendered kind)
  tracked : ∀ amount, Run.Safe I E (Run.track amount)
  input : ∀ depth label binding, p.Has (.node depth (.input label binding)) →
    Run.Safe I E (Run.writeMissing binding (.text ""))
  list : ∀ depth binding template, p.Has (.node depth (.list binding template)) →
    Run.Safe I E (Run.writeMissing binding (.list []))
  /-- a button may name a handler that its screen does not have -/
  missing : ∀ s ∈ p.screens, ∀ name, Site.handler name ∈ s.sites → s.handler? name = none →
    E (.undefinedHandler name none)
  block : ∀ under depth, p.Has (.block under depth) →
    Run.Safe I E (Run.checkDepth "action nesting depth" depth)
  executed : ∀ a, p.Has (.action a) → Run.Safe I E (Run.log .actionExecuted a.text)
  navigate : ∀ n, p.Has (.action (.navigate n)) → Run.Safe I E (Run.navigate n)
  update : ∀ name value source, p.Has (.action (.update name value source)) →
    (∀ site ∈ value.sites, p.Has site) → Run.Safe I E (Run.update name value source)
  call : ∀ function args, p.Has (.action (.call function args)) →
    Run.Safe I E (Run.call function args)
  code : ∀ text, p.Has (.action (.code text)) → Run.Safe I E (Run.skipCode text)
  largeLoop : ∀ name range body, p.Has (.action (.loop name range body)) →
    maxLoopBody < body.length → E .largeLoop
  invalidRange : ∀ name range body, p.Has (.action (.loop name range body)) →
    Range.ofText? range = none → E (.invalidRange range)
  counted : ∀ name range body, p.Has (.action (.loop name range body)) →
    ∀ i, Run.Safe I E (Run.write name (.int i))

/-- A run starts on the screen that it is asked for. -/
theorem Run.start_yields {p : Program} (name : String) (risk : Option Risk) :
    Yields (start p name risk) fun s => p.screen? name = some s := by
  have entered : Yields (enterScreen p name) fun s => p.screen? name = some s := by
    unfold enterScreen
    split
    · exact .stop _
    · next hs => exact .bind fun _ => .bind fun _ => .bind fun _ => .pure hs
  exact .bind fun _ => .bind fun _ => .bind fun _ => .bind fun _ => entered

namespace Steps

open Run (Safe)

variable {p : Program} {I : RunState → Prop} {E : RunError → Prop} (steps : Steps p I E)

section

include steps

theorem checkpoint : Safe I E Run.checkpoint :=
  .checkpoint steps.outside steps.cancelled steps.timedOut steps.outOfMemory

/-! ## Actions -/

mutual

/-- The sites of an action are those of the program, so everything inside it is. -/
theorem action (under depth : Nat) :
    ∀ a : Action, (∀ site ∈ a.sites under depth, p.Has site) → Safe I E (Run.action depth a)
  | .navigate n, h => steps.navigate n (h _ List.mem_cons_self)
  | .update name value source, h => by
    rw [Action.sites, List.forall_mem_cons] at h
    exact steps.update name value source h.1 h.2
  | .call function args, h => by
    refine steps.call function args (h _ ?_)
    rw [Action.sites]
    exact List.mem_cons_self
  -- blocks inside have their sites among those of the action, so the induction reaches them
  | .branch condition thenActions elseActions, h => by
    refine .bind (.holds condition) fun b => ?_
    split
    · refine .bind (steps.block under (depth + 1) (h _ ?_)) fun _ =>
        actions under (depth + 1) thenActions fun site hs => h site ?_
      · simp [Action.sites]
      · simp [Action.sites, hs]
    · refine .bind (steps.block under (depth + 1) (h _ ?_)) fun _ =>
        actions under (depth + 1) elseActions fun site hs => h site ?_
      · simp [Action.sites]
      · simp [Action.sites, hs]
  | .loop name range body, h => by
    have looped : p.Has (.action (.loop name range body)) := h _ List.mem_cons_self
    refine .loop (steps.largeLoop name range body looped) (steps.invalidRange name range body looped) ?_
    refine .rounds steps.checkpoint (steps.counted name range body looped) ?_
    refine .bind (steps.block under (depth + 1) (h _ ?_)) fun _ =>
      actions under (depth + 1) body fun site hs => h site ?_
    · simp [Action.sites]
    · simp [Action.sites, hs]
  | .code text, h => by
    refine steps.code text (h _ ?_)
    rw [Action.sites]
    exact List.mem_cons_self

theorem actions (under depth : Nat) :
    ∀ as : List Action, (∀ site ∈ Action.sitesOf under depth as, p.Has site) →
      Safe I E (Run.actions depth as)
  | [], _ => .pure _
  | a :: as, h => by
    rw [Action.sitesOf, List.forall_mem_append] at h
    obtain ⟨first, later⟩ := h
    refine .bind steps.checkpoint fun _ => .bind (.express steps.outside _) fun _ =>
      .bind (steps.executed a (first _ ?_)) fun _ => .bind (action under depth a first) fun _ =>
      actions under depth as later
    cases a <;> simp [Action.sites, Navigation.sites]

end

theorem blockOf {under depth : Nat} {as : List Action}
    (h : ∀ site ∈ Action.blockSites under depth as, p.Has site) : Safe I E (Run.block depth as) := by
  obtain ⟨opened, inside⟩ := List.forall_mem_cons.mp h
  exact .bind (steps.block under depth opened) fun _ => steps.actions under depth as inside

theorem handlerOf {s : Screen} (hs : s ∈ p.screens) {name : String} {h : Handler}
    (hh : s.handler? name = some h) : Safe I E (Run.block 1 h.body) := by
  have inside (site : Site) (hm : site ∈ h.sites) : p.Has site := by
    refine ⟨s, hs, List.mem_append_right _ ?_⟩
    exact List.mem_flatMap.mpr ⟨h, List.mem_of_find?_eq_some hh, hm⟩
  exact steps.blockOf inside

/-! ## UI trees -/

section

variable {s : Screen} (hs : s ∈ p.screens)
include hs

theorem press {depth : Nat} {label : String} {navigation : Option Navigation}
    {handler : Option String} {as : List Action}
    (h : ∀ site ∈ Node.sites depth (.button label navigation handler as), site ∈ s.sites) :
    Safe I E (Run.press s navigation handler as) := by
  simp only [Node.sites, List.cons_append, List.forall_mem_cons, List.forall_mem_append] at h
  obtain ⟨-, ⟨navigates, handles⟩, acts⟩ := h
  -- the navigation of a button is run as a block of its own
  have moved (n : Navigation) (hn : navigation = some n) : Safe I E (Run.block 1 [.navigate n]) := by
    subst hn
    refine .bind (.checkDepth fun deep => absurd deep (by decide)) fun _ => ?_
    refine steps.actions depth 1 [.navigate n] fun site hm => ⟨s, hs, navigates site ?_⟩
    simpa [Action.sitesOf, Action.sites] using hm
  refine .bind (steps.blockOf fun site hm => ⟨s, hs, acts site hm⟩) fun _ => ?_
  cases handler with
  | none =>
    cases navigation with
    | none => exact .pure _
    | some n => exact moved n rfl
  | some name =>
    dsimp only
    cases hh : s.handler? name with
    | none =>
      have named : Site.handler name ∈ s.sites := handles _ (by simp)
      exact .stop_bind (steps.missing s hs name named hh)
    | some h =>
      refine .bind (steps.handlerOf hs hh) fun _ => ?_
      cases navigation with
      | none => exact .pure _
      | some n => exact moved n rfl

theorem enter {depth : Nat} (pressing : Bool) {n : Node} (h : ∀ site ∈ n.sites depth, site ∈ s.sites) :
    Safe I E (Run.enter s depth pressing n) := by
  have here : p.Has (.node depth n) := ⟨s, hs, h _ (by cases n <;> simp [Node.sites])⟩
  have visited : Safe I E (Run.visit s pressing n) := by
    cases n with
    | text => exact .bind .look fun _ => .bind (.express steps.outside _) fun _ => steps.tracked _
    | image => exact steps.tracked _
    | input label binding => exact .bind (steps.tracked _) fun _ => steps.input depth label binding here
    | list binding template =>
      exact .bind (steps.list depth binding template here) fun _ => .bind .get fun _ => steps.tracked _
    | component => exact .bind (.express steps.outside _) fun _ => steps.tracked _
    | button label navigation handler as =>
      refine .bind (steps.tracked _) fun _ => ?_
      split
      · exact steps.press hs h
      · exact .pure _
    | container | conditional => exact .pure _
  refine .bind (steps.node depth n here) fun _ => .bind .options fun options => ?_
  dsimp only
  split
  · exact .bind (steps.rendered _) fun _ => visited
  · exact visited

end

end

mutual

/-- A walk over a tree of the screen stays inside the screen. -/
theorem walk (steps : Steps p I E) {s : Screen} (hs : s ∈ p.screens) (depth : Nat) (pressing : Bool) :
    ∀ n : Node, (∀ site ∈ n.sites depth, site ∈ s.sites) → Safe I E (Run.walk s depth pressing n)
  -- the node is entered under its own site, its children under theirs, and a checkpoint follows
  | .container layout nodes, h => by
    rw [Run.walk]
    refine .bind (steps.enter hs pressing h) fun _ => .bind ?_ fun _ => steps.checkpoint
    refine walkAll steps hs (depth + 1) pressing nodes fun site hm => h site ?_
    simp [Node.sites, hm]
  | .list binding template, h => by
    rw [Run.walk]
    refine .bind (steps.enter hs pressing h) fun _ => .bind ?_ fun _ => steps.checkpoint
    refine walk steps hs (depth + 1) false template fun site hm => h site ?_
    simp [Node.sites, hm]
  | .conditional condition thenBranch elseBranch, h => by
    rw [Run.walk]
    refine .bind (steps.enter hs pressing h) fun _ => .bind (.holds condition) fun b => ?_
    dsimp only
    split
    · refine .bind (walk steps hs (depth + 1) pressing thenBranch fun site hm => h site ?_) fun _ =>
        steps.checkpoint
      simp [Node.sites, hm]
    · refine .bind (walkElse steps hs (depth + 1) pressing elseBranch fun site hm => h site ?_) fun _ =>
        steps.checkpoint
      simp [Node.sites, hm]
  | .text .., h | .button .., h | .image _, h | .input .., h | .component .., h => by
    rw [Run.walk]
    · exact .bind (steps.enter hs pressing h) fun _ => steps.checkpoint
    all_goals simp

theorem walkAll (steps : Steps p I E) {s : Screen} (hs : s ∈ p.screens) (depth : Nat) (pressing : Bool) :
    ∀ nodes : List Node, (∀ site ∈ Node.sitesOf depth nodes, site ∈ s.sites) →
      Safe I E (Run.walkAll s depth pressing nodes)
  | [], _ => .pure _
  | n :: ns, h => by
    rw [Node.sitesOf, List.forall_mem_append] at h
    obtain ⟨first, later⟩ := h
    rw [Run.walkAll]
    exact .bind (walk steps hs depth pressing n first) fun _ => walkAll steps hs depth pressing ns later

theorem walkElse (steps : Steps p I E) {s : Screen} (hs : s ∈ p.screens) (depth : Nat) (pressing : Bool) :
    ∀ n : Option Node, (∀ site ∈ Node.sitesOfElse depth n, site ∈ s.sites) →
      Safe I E (Run.walkElse s depth pressing n)
  | none, _ => .pure _
  | some n, h => walk steps hs depth pressing n h

end

/-! ## Whole runs -/

include steps

theorem start {name : String} (undefined : p.screen? name = none → E (.undefinedScreen name))
    (risk : Option Risk) : Safe I E (Run.start p name risk) := by
  have entered : Safe I E (Run.enterScreen p name) := by
    unfold Run.enterScreen
    split
    · next hn => exact .stop (undefined hn)
    · next s hn =>
      have hs : s ∈ p.screens := List.mem_of_find?_eq_some hn
      have checked : Safe I E ((do Run.settle ((← get).engine.guard.checkScreen s)) >>= fun _ => do
          Run.seed s.state
          return s) :=
        .bind (steps.screen s hs) fun _ => .bind (.seed (steps.screenState s hs)) fun _ => .pure s
      exact checked
  exact .bind (steps.status _) fun _ => .bind (steps.accept risk) fun _ =>
    .bind (.seed steps.appState) fun _ => .bind (steps.status _) fun _ => entered

/-- A run is safe if its steps are, and if it may stop where the screen is not defined. -/
theorem showing {name : String} (undefined : p.screen? name = none → E (.undefinedScreen name))
    (risk : Option Risk) : Safe I E (Run.showing p name risk) := by
  refine .bind_yields (steps.start undefined risk) (Run.start_yields name risk) fun s hs => ?_
  have here : s ∈ p.screens := List.mem_of_find?_eq_some hs
  refine .bind (steps.walk here 1 true s.ui fun site hm => ?_) fun _ => steps.checkpoint
  exact List.mem_append_left _ hm

/-- So is running a handler, if it may stop where the screen or the handler is not defined. -/
theorem handling {name handler : String} (undefined : p.screen? name = none → E (.undefinedScreen name))
    (unhandled : ∀ s, p.screen? name = some s → s.handler? handler = none →
      E (.undefinedHandler handler (some name))) : Safe I E (Run.handling p name handler) := by
  refine .bind_yields (steps.start undefined none) (Run.start_yields name none) fun s hs => ?_
  split
  · next hh => exact .stop (unhandled s hs hh)
  · next hh =>
    exact .bind (steps.handlerOf (List.mem_of_find?_eq_some hs) hh) fun _ => steps.checkpoint

end Steps

end Screenplay
