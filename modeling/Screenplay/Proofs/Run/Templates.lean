/-
Walks over lists. In a program without reference errors every node is bound to a variable of its screen, and the
screen's variables are written before its tree is walked over. So at every moment of a run the bindings of what is
left to walk over have values, or are written first. The template of a list is not pressed, and finds its bindings
there: the walk over a list adds to the estimate of the memory and traces what it renders, and nothing else.
-/
import Screenplay.Proofs.Program.References
import Screenplay.Proofs.Run.Moments
import Screenplay.Proofs.Store.Writes

namespace Screenplay

/-! ## Bindings -/

namespace Node

/-- The variable that a node is bound to. -/
def binding? : Node → Option String
  | .input _ binding | .list binding _ => some binding
  | .container .. | .text .. | .button .. | .image _ | .conditional .. | .component .. => none

/-- A node that is bound to a known variable, or to none. -/
def Finds (known : String → Prop) (node : Node) : Prop := ∀ name, node.binding? = some name → known name

/-- A tree whose nodes are bound to known variables. -/
def Bound (known : String → Prop) (root : Node) : Prop := ∀ node, Holds children root node → node.Finds known

variable {known more : String → Prop} {node : Node}

theorem Finds.mono (h : node.Finds known) (le : ∀ name, known name → more name) : node.Finds more :=
  fun name bound => le name (h name bound)

theorem Bound.mono (h : node.Bound known) (le : ∀ name, known name → more name) : node.Bound more :=
  fun part held => (h part held).mono le

theorem bound_iff : node.Bound known ↔ node.Finds known ∧ ∀ part ∈ node.children, part.Bound known := forall_holds

end Node

/-- In a consistent program the trees of screens are bound to variables of the screens. -/
theorem Program.Consistent.bound {p : Program} (h : p.Consistent) {s : Screen} (hs : s ∈ p.screens) :
    s.ui.Bound (· ∈ s.state.map (·.name)) := by
  intro node held name bound
  cases node with
  | input label =>
    cases bound
    exact h.inputs s hs label name held
  | list _ template =>
    cases bound
    exact h.lists s hs name template held
  | container | text | button | image | conditional | component => cases bound

/-! ## Supplies -/

namespace Task

/-- A task that walks over nodes only that are bound to known variables. A screen that is yet to be entered brings
its own ones along. -/
def Ready (known : String → Prop) : Task → Prop
  | .visit _ _ node => node.Finds known
  | .branch _ _ _ _ thenBranch elseBranch => thenBranch.Bound known ∧ ∀ node ∈ elseBranch, node.Bound known
  | .walk _ _ _ node => node.Bound known
  | .present p _ => ∀ s ∈ p.screens, s.ui.Bound (· ∈ s.state.map (·.name))
  | _ => True

/-- Whether a variable has a value when a task is done, whatever it had before. -/
def Sets (name : String) : Task → Prop
  | .move (.write other _) | .missing other _ => name = other
  | .seed vs => name ∈ vs.map (·.name)
  | _ => False

/-- Tasks each of which is ready for the variables that are known and those that the tasks before it set. -/
def Supplied : (String → Prop) → List Task → Prop
  | _, [] => True
  | known, t :: ts => t.Ready known ∧ Supplied (fun name => known name ∨ t.Sets name) ts

variable {known more : String → Prop} {t : Task} {ts us : List Task}

theorem Ready.mono (h : t.Ready known) (le : ∀ name, known name → more name) : t.Ready more := by
  cases t with
  | visit => exact Node.Finds.mono h le
  | branch => exact ⟨h.1.mono le, fun node hn => (h.2 node hn).mono le⟩
  | walk => exact Node.Bound.mono h le
  | present => exact h
  | _ => trivial

theorem Supplied.mono (h : Supplied known ts) (le : ∀ name, known name → more name) : Supplied more ts := by
  induction ts generalizing known more with
  | nil => trivial
  | cons t ts ih => exact ⟨h.1.mono le, ih h.2 fun name => Or.imp_left (le name)⟩

theorem Supplied.of_ready (h : ∀ t ∈ ts, t.Ready known) : Supplied known ts := by
  induction ts with
  | nil => trivial
  | cons t ts ih =>
    rw [List.forall_mem_cons] at h
    exact ⟨h.1, (ih h.2).mono fun _ => .inl⟩

theorem supplied_append :
    Supplied known (ts ++ us) ↔
      Supplied known ts ∧ Supplied (fun name => known name ∨ ∃ t ∈ ts, t.Sets name) us := by
  induction ts generalizing known with
  | nil => simp [Supplied]
  | cons t ts ih =>
    rw [List.cons_append, Supplied, Supplied, ih, and_assoc]
    simp only [List.mem_cons, exists_eq_or_imp, or_assoc]

/-! ### Parts -/

theorem ready_writing (name : String) (value : Value) : ∀ t ∈ writing name value, t.Ready known := by
  simp [writing, Ready]

theorem ready_argument (s : RunState) (arg : Expr) : ∀ t ∈ argument s arg, t.Ready known := by
  unfold argument judging
  split <;> simp [stop, Ready]

theorem ready_block (depth : Nat) (as : List Action) : ∀ t ∈ block depth as, t.Ready known := by
  simp [block, Ready]

theorem ready_handler (screen : Screen) (name : String) (asked : Option String) :
    ∀ t ∈ handler screen name asked, t.Ready known :=
  forall_handler trivial (ready_block 1)

theorem ready_action (s : RunState) (depth : Nat) (a : Action) :
    ∀ t ∈ partsOfAction s depth a, t.Ready known := by
  intro t ht
  cases ofAction_parts s depth a t ht <;> trivial

theorem ready_visit (s : RunState) (screen : Screen) (pressing : Bool) (node : Node) :
    ∀ t ∈ partsOfVisit s screen pressing node, t.Ready known := by
  refine forall_visit (fun _ => trivial) (fun _ => trivial) (fun _ _ => trivial) (fun _ => trivial) ?_
  intro navigation name as
  exact forall_press (fun _ => trivial) (ready_block 1)

theorem bound_branches {condition : Expr} {thenBranch : Node} {elseBranch : Option Node}
    (h : ∀ part ∈ (Node.conditional condition thenBranch elseBranch).children, part.Bound known) :
    thenBranch.Bound known ∧ ∀ node ∈ elseBranch, node.Bound known := by
  cases elseBranch with
  | none => exact ⟨h thenBranch List.mem_cons_self, nofun⟩
  | some other =>
    refine ⟨h thenBranch List.mem_cons_self, ?_⟩
    rintro _ ⟨⟩
    exact h other (List.mem_cons_of_mem _ List.mem_cons_self)

/-- What is below a node is ready if its children are. -/
theorem ready_below (screen : Screen) (depth : Nat) (pressing : Bool) {node : Node}
    (h : ∀ part ∈ node.children, part.Bound known) :
    ∀ t ∈ partsBelow screen depth pressing node, t.Ready known := by
  cases node with
  | container layout nodes => exact List.forall_mem_map.mpr h
  | list binding template => exact List.forall_mem_singleton.mpr (h template List.mem_cons_self)
  | conditional condition thenBranch elseBranch =>
    exact List.forall_mem_singleton.mpr (bound_branches h)
  | text | button | image | input | component => exact List.forall_mem_nil _

/-- A screen that is entered sets its variables before it is walked over. -/
theorem supplied_present {p : Program} (h : ∀ s ∈ p.screens, s.ui.Bound (· ∈ s.state.map (·.name))) (name : String) :
    Supplied known (entering p name fun screen => [.walk screen 1 true screen.ui, .move .pause]) := by
  unfold entering
  cases hs : p.screen? name with
  | none => exact ⟨trivial, trivial⟩
  | some screen =>
    refine ⟨trivial, trivial, ?_, trivial, trivial⟩
    exact (h screen (List.mem_of_find?_eq_some hs)).mono fun name declared => .inr declared

/-- The parts of a ready task are supplied. -/
theorem supplied_parts {s : RunState} (h : t.parts? s = some ts) (ready : t.Ready known) : Supplied known ts := by
  cases t with
  | move m => cases h
  -- only trees ask for variables, so all other tasks are ready by themselves
  | accept p risk =>
    cases risk with
    | none => cases h; exact ⟨trivial, trivial⟩
    | some found =>
      cases h
      refine ⟨?_, trivial⟩
      split <;> trivial
  | missing name value =>
    cases h
    split
    · trivial
    · exact .of_ready (ready_writing name value)
  | seed vs => cases vs <;> cases h <;> simp [Supplied, Ready]
  | arguments args =>
    cases args with
    | nil => cases h; trivial
    | cons arg args =>
      cases h
      exact .of_ready (List.forall_mem_append.mpr ⟨ready_argument s arg, by simp [Ready]⟩)
  | calling function texts args =>
    cases args with
    | nil => cases h; exact ⟨trivial, trivial⟩
    | cons arg args =>
      cases h
      exact .of_ready (List.forall_mem_append.mpr ⟨ready_argument s arg, by simp [Ready]⟩)
  | action depth a => cases h; exact .of_ready (ready_action s depth a)
  | actions depth as => cases as <;> cases h <;> simp [Supplied, Ready]
  | rounds name depth body n i => cases n <;> cases h <;> simp [Supplied, Ready, writing, block]
  | measure binding => cases h; exact ⟨trivial, trivial⟩
  | visit screen pressing node => cases h; exact .of_ready (ready_visit s screen pressing node)
  | branch screen depth pressing condition thenBranch elseBranch =>
    cases h
    refine .of_ready (forall_deciding trivial (List.forall_mem_singleton.mpr ready.1) (List.forall_mem_map.mpr ?_))
    intro node hn
    exact ready.2 node (Option.mem_toList.mp hn)
  | walk screen depth pressing node =>
    cases h
    -- a tree is bound at its root and below it; the root writes its variable before the children follow
    obtain ⟨here, below⟩ := Node.bound_iff.mp ready
    refine .of_ready ?_
    simp only [List.cons_append, List.forall_mem_cons, List.forall_mem_append]
    refine ⟨trivial, ⟨?_, here, ready_below screen (depth + 1) pressing below⟩, trivial, List.forall_mem_nil _⟩
    split <;> simp [Ready]
  | present p name => cases h; exact supplied_present ready name
  | handle p name handler =>
    cases h
    unfold entering
    cases p.screen? name with
    | none => exact ⟨trivial, trivial⟩
    | some screen =>
      refine .of_ready ?_
      simp only [List.forall_mem_append, List.forall_mem_cons]
      exact ⟨⟨trivial, trivial, List.forall_mem_nil _⟩, ready_handler screen handler _, trivial,
        List.forall_mem_nil _⟩

/-- What a task sets has a value already, or its parts set it. -/
theorem sets_parts {s : RunState} {name : String} (h : t.parts? s = some ts) (sets : t.Sets name) :
    s.store.has name = true ∨ ∃ part ∈ ts, part.Sets name := by
  cases t with
  | move m => cases h
  | missing other value =>
    cases h
    cases sets
    cases s.store.has name with
    | true => exact .inl rfl
    | false => exact .inr ⟨_, List.mem_cons_self, rfl⟩
  | seed vs =>
    cases vs with
    | nil => cases sets
    | cons v vs =>
      cases h
      rcases List.mem_cons.mp sets with here | later
      · exact .inr ⟨_, List.mem_cons_self, here⟩
      · exact .inr ⟨_, List.mem_cons_of_mem _ List.mem_cons_self, later⟩
  | _ => cases sets

end Task

/-! ### Moves and moments -/

/-- Without listeners, a move that is made leaves the variables that have values, and adds those that it sets. -/
theorem Move.has_effect {m : Move} {s : RunState} (quiet : s.store.listeners = []) (made : m.verdict s = .ok ()) :
    (m.effect s).store.listeners = [] ∧
      ∀ name, s.store.has name = true ∨ (Task.move m).Sets name → (m.effect s).store.has name = true := by
  have kept {t : RunState} (values : t.store.values = s.store.values) (name : String)
      (h : s.store.has name = true ∨ False) : t.store.has name = true := by
    unfold Store.has
    rw [values]
    exact h.resolve_right id
  cases m with
  | status entered =>
    obtain ⟨events, eq⟩ := s.setStatus_eq entered
    rw [effect, eq]
    exact ⟨quiet, kept rfl⟩
  | log kind detail => exact ⟨by rw [effect, s.log_store]; exact quiet, kept (by rw [effect, s.log_store])⟩
  | write other value =>
    rcases Store.set_unheard quiet s.engine.writeGuard other value with ⟨change, -, eq⟩ | ⟨violation, failed, -⟩
    · dsimp only [effect]
      rw [eq]
      refine ⟨quiet, fun name h => ?_⟩
      rw [Store.has_commit, Bool.or_eq_true]
      exact h.imp_right fun same => beq_iff_eq.mpr (Eq.symm same)
    · rw [verdict, failed] at made
      cases made
  | check | vet | depth | track | pause | express | record | stop => exact ⟨quiet, kept rfl⟩

/-- A moment without listeners at which the bindings of what is left to walk over have values, or are written first. -/
structure Moment.Stocked (m : Moment) : Prop where
  quiet : m.state.store.listeners = []
  supplied : Task.Supplied (fun name => m.state.store.has name = true) m.left

namespace Moment

variable {m n : Moment}

theorem Stocked.next (h : m.Stocked) (next : Next m n) : n.Stocked := by
  obtain ⟨quiet, supplied⟩ := h
  cases next with
  | made hv =>
    obtain ⟨unheard, has⟩ := Move.has_effect quiet hv
    exact ⟨unheard, supplied.2.mono has⟩
  | opened hp =>
    -- what the task was to set has a value already, or its parts set it before anything that follows
    refine ⟨quiet, Task.supplied_append.mpr ⟨Task.supplied_parts hp supplied.1, supplied.2.mono fun name h => ?_⟩⟩
    exact h.elim .inl (Task.sets_parts hp)

theorem Stocked.reaches (h : m.Stocked) (reached : m.Reaches n) : n.Stocked :=
  reached.keeps (fun _ _ next hm => hm.next next) h

/-- A request of a consistent program on a store without listeners is stocked. -/
theorem Stocked.first {p : Program} (hp : p.Consistent) {store : Store} (quiet : store.listeners = [])
    (engine : Engine) (q : RunRequest) : (q.first engine p store).Stocked := by
  refine ⟨quiet, ?_⟩
  cases q with
  | run entry risk => exact ⟨trivial, trivial, trivial, trivial, fun s hs => hp.bound hs, trivial⟩
  | dispatch screen handler => exact ⟨trivial, trivial, trivial, trivial, trivial, trivial⟩

end Moment

/-! ## Measuring -/

/-- A state that differs from another one in the estimate of the memory, which has not become smaller, and in what
has been rendered since. The engine may have turned to its surroundings, and learned that its end is asked for. -/
structure RunState.Measured (s t : RunState) : Prop where
  engine : ∃ cancelled contacts, t.engine = { s.engine with cancelled, contacts }
  baseline : t.baseline = s.baseline
  heard : t.heard = s.heard
  store : t.store = { s.store with memory := t.store.memory }
  memory : s.store.memory ≤ t.store.memory
  traced : Adds (· = .uiRendered) s t

namespace RunState.Measured

variable {s t u : RunState}

theorem turned (s : RunState) (cancelled : Bool) (contacts : Nat) :
    s.Measured { s with engine := { s.engine with cancelled, contacts } } :=
  ⟨⟨cancelled, contacts, rfl⟩, rfl, rfl, rfl, Int.le_refl _, .of_eq rfl rfl⟩

theorem refl (s : RunState) : s.Measured s := turned s s.engine.cancelled s.engine.contacts

theorem trans (h : s.Measured t) (g : t.Measured u) : s.Measured u := by
  refine ⟨?_, g.baseline.trans h.baseline, g.heard.trans h.heard, ?_, Int.le_trans h.memory g.memory,
    h.traced.trans g.traced⟩
  · obtain ⟨_, _, first⟩ := h.engine
    obtain ⟨cancelled, contacts, later⟩ := g.engine
    exact ⟨cancelled, contacts, by rw [later, first]⟩
  · rw [g.store, h.store]

theorem log (s : RunState) (detail : String) : s.Measured (s.log .uiRendered detail) := by
  have rendered : Adds (· = EventKind.uiRendered) s s := .refl s
  have traced := rendered.log rfl detail
  revert traced
  unfold RunState.log
  split
  · exact fun _ => refl s
  · exact fun traced => { refl s with store := rfl, memory := Int.le_refl _, traced }

theorem track (s : RunState) (amount : Nat) : s.Measured { s with store := s.store.track amount } :=
  { refl s with
    store := rfl, memory := Int.le_add_of_nonneg_right (Int.natCast_nonneg amount), traced := .of_eq rfl rfl }

/-- The variables that have values are the same. -/
theorem has (h : s.Measured t) (name : String) : t.store.has name = s.store.has name := by
  rw [h.store]
  rfl

end RunState.Measured

namespace Task

/-- Whether a task belongs to an action. -/
def acts : Task → Bool
  | .arguments _ | .calling .. | .action .. | .actions .. | .rounds .. => true
  | _ => false

/-- A visit or a walk at which no button is pressed: it presses nothing, or the node is a list. -/
def Unpressed (pressing : Bool) (node : Node) : Prop :=
  pressing = false ∨ ∃ binding template, node = .list binding template

/-- A task in the walk over a list: it walks over nodes that are bound to known variables and presses none, it
measures, or it is a move that belongs to this. -/
def Measures (known : String → Prop) : Task → Prop
  | .move (.log kind _) => kind = .uiRendered
  | .move (.depth ..) | .move (.track _) | .move .pause | .move (.express _) | .move (.stop _) | .measure _ => True
  | .missing name _ => known name
  | .visit _ pressing node => Unpressed pressing node ∧ node.Finds known
  | .branch _ _ pressing _ thenBranch elseBranch =>
    pressing = false ∧ thenBranch.Bound known ∧ ∀ node ∈ elseBranch, node.Bound known
  | .walk _ _ pressing node => Unpressed pressing node ∧ node.Bound known
  | _ => False

variable {known : String → Prop} {t : Task} {ts : List Task}

theorem Measures.idle (h : t.Measures known) : t.acts = false := by
  cases t with
  | arguments | calling | action | actions | rounds => cases h
  | _ => rfl

theorem measures_visit (s : RunState) (screen : Screen) {pressing : Bool} {node : Node}
    (unpressed : Unpressed pressing node) (finds : node.Finds known) :
    ∀ t ∈ partsOfVisit s screen pressing node, t.Measures known := by
  cases node with
  | input label binding => exact List.forall_mem_cons.mpr ⟨trivial, List.forall_mem_singleton.mpr (finds binding rfl)⟩
  | list binding template =>
    exact List.forall_mem_cons.mpr ⟨finds binding rfl, List.forall_mem_singleton.mpr trivial⟩
  | button label navigation name as =>
    rcases unpressed with rfl | ⟨_, _, ⟨⟩⟩
    exact List.forall_mem_singleton.mpr trivial
  | _ => simp [partsOfVisit, Measures]

/-- Nothing below a node is pressed, if the node is a list or is not pressed itself. -/
theorem measures_below (screen : Screen) (depth : Nat) {pressing : Bool} {node : Node}
    (unpressed : Unpressed pressing node) (bound : ∀ part ∈ node.children, part.Bound known) :
    ∀ t ∈ partsBelow screen depth pressing node, t.Measures known := by
  cases node with
  | list binding template =>
    exact List.forall_mem_singleton.mpr ⟨.inl rfl, bound template List.mem_cons_self⟩
  | container layout nodes =>
    rcases unpressed with rfl | ⟨_, _, ⟨⟩⟩
    exact List.forall_mem_map.mpr fun node hn => ⟨.inl rfl, bound node hn⟩
  | conditional condition thenBranch elseBranch =>
    rcases unpressed with rfl | ⟨_, _, ⟨⟩⟩
    exact List.forall_mem_singleton.mpr ⟨rfl, bound_branches bound⟩
  | text | button | image | input | component => exact List.forall_mem_nil _

/-- The parts of a task in the walk over a list are in it, too: a binding that is known is not written. -/
theorem measures_parts {s : RunState} (h : t.parts? s = some ts) (has : ∀ name, known name → s.store.has name = true)
    (measures : t.Measures known) : ∀ part ∈ ts, part.Measures known := by
  cases t with
  | move m => cases h
  | missing name value =>
    cases h
    -- the binding has a value, so there is nothing to write
    rw [if_pos (has name measures)]
    exact List.forall_mem_nil _
  | measure binding => cases h; exact List.forall_mem_singleton.mpr trivial
  | visit screen pressing node => cases h; exact measures_visit s screen measures.1 measures.2
  | branch screen depth pressing condition thenBranch elseBranch =>
    cases h
    obtain ⟨rfl, yes, no⟩ := measures
    refine forall_deciding trivial (List.forall_mem_singleton.mpr ⟨.inl rfl, yes⟩) (List.forall_mem_map.mpr ?_)
    intro node hn
    exact ⟨.inl rfl, no node (Option.mem_toList.mp hn)⟩
  | walk screen depth pressing node =>
    cases h
    obtain ⟨unpressed, bound⟩ := measures
    obtain ⟨here, below⟩ := Node.bound_iff.mp bound
    simp only [List.cons_append, List.forall_mem_cons, List.forall_mem_append]
    refine ⟨trivial, ⟨?_, ⟨unpressed, here⟩, measures_below screen (depth + 1) unpressed below⟩, trivial,
      List.forall_mem_nil _⟩
    split <;> simp [Measures]
  | accept | seed | arguments | calling | action | actions | rounds | present | handle => cases measures

end Task

/-- A move in the walk over a list measures. -/
theorem Move.measured_effect {m : Move} {known : String → Prop} (h : (Task.move m).Measures known) (s : RunState) :
    s.Measured (m.effect s) := by
  cases m with
  | log kind detail =>
    cases h
    exact .log s detail
  | track amount => exact .track s amount
  | depth | stop => exact .refl s
  | pause | express => exact .turned s _ _
  | status | check | vet | record | write => cases h

namespace Moment

variable {m n : Moment}

/-- A moment in the walk over a list: every binding that is left has a value. -/
structure Measuring (m : Moment) : Prop where
  measures : ∀ t ∈ m.left, t.Measures (fun name => m.state.store.has name = true)

theorem Measuring.next (h : m.Measuring) (next : Next m n) : m.state.Measured n.state ∧ n.Measuring := by
  obtain ⟨h⟩ := h
  cases next with
  | @made move left s hv =>
    rw [List.forall_mem_cons] at h
    have measured := move.measured_effect h.1 s
    refine ⟨measured, ⟨?_⟩⟩
    -- the variables are the same, so the bindings that are left still have values
    simp only [measured.has]
    exact h.2
  | opened hp =>
    rw [List.forall_mem_cons] at h
    exact ⟨.refl _, ⟨List.forall_mem_append.mpr ⟨Task.measures_parts hp (fun _ => id) h.1, h.2⟩⟩⟩

theorem Measuring.reaches (h : m.Measuring) (reached : m.Reaches n) : m.state.Measured n.state ∧ n.Measuring := by
  induction reached with
  | refl => exact ⟨.refl _, h⟩
  | tail _ next ih =>
    obtain ⟨measured, later⟩ := ih.2.next next
    exact ⟨ih.1.trans measured, later⟩

/-- The outcome of the walk over a list measures, whether it stops the run or not. -/
theorem Measuring.outcome (h : m.Measuring) : m.state.Measured m.outcome.2 := by
  obtain ⟨last, reached, ends⟩ := m.exists_ends
  obtain ⟨measured, ⟨left⟩⟩ := h.reaches reached
  rw [reached.outcome_eq]
  refine measured.trans ?_
  cases ends with
  | done s => exact .refl s
  | stopped hv =>
    rw [outcome_stopped hv]
    exact Move.measured_effect (left _ List.mem_cons_self) _

/-- What is left at a moment may be followed by other tasks. -/
theorem Reaches.append (h : m.Reaches n) (us : List Task) :
    Reaches ⟨m.left ++ us, m.state⟩ ⟨n.left ++ us, n.state⟩ := by
  induction h with
  | refl => exact .refl
  | tail _ next ih =>
    refine ih.tail ?_
    cases next with
    | made hv => exact .made hv
    | @opened task parts left s hp =>
      rw [List.append_assoc]
      exact .opened hp

end Moment

/-- The walk over a list measures, and does nothing else. Whenever a run of a program without reference errors comes
to a list, on a store without listeners, the walk over the list and its template leaves all but the estimate of
the memory as it was, and traces rendered nodes only. The moments of this walk are moments of the run: at none of
them is an action left to do, and from each to every later one nothing else changes either. -/
theorem list_measured {p : Program} (consistent : p.referenceErrors = .ok []) {engine : Engine} {store : Store}
    (quiet : store.listeners = []) {q : RunRequest} {m : Moment} (reached : (q.first engine p store).Reaches m)
    {screen : Screen} {depth : Nat} {pressing : Bool} {binding : String} {template : Node} {left : List Task}
    (next : m.left = .walk screen depth pressing (.list binding template) :: left) :
    m.state.Measured (Run.walk screen depth pressing (.list binding template) m.state).2 ∧
    ∀ n, Moment.Reaches ⟨[.walk screen depth pressing (.list binding template)], m.state⟩ n →
      m.Reaches ⟨n.left ++ left, n.state⟩ ∧ (∀ t ∈ n.left, t.acts = false) ∧
        ∀ later, n.Reaches later → n.state.Measured later.state := by
  have stocked := (Moment.Stocked.first (Program.consistent_of_referenceErrors consistent) quiet engine q).reaches
    reached
  obtain ⟨tasks, s⟩ := m
  cases next
  -- the walk comes first, so its bindings have values now: no task before it is left to write them
  have measuring : Moment.Measuring ⟨[.walk screen depth pressing (.list binding template)], s⟩ :=
    ⟨List.forall_mem_singleton.mpr ⟨.inr ⟨binding, template, rfl⟩, stocked.supplied.1⟩⟩
  constructor
  · have measured := measuring.outcome
    rw [Moment.outcome, Task.runAll_one] at measured
    exact measured
  · intro n during
    obtain ⟨-, still⟩ := measuring.reaches during
    refine ⟨during.append left, fun t ht => (still.measures t ht).idle, fun later after => ?_⟩
    exact (still.reaches after).1

namespace Engine

/-- A program that shows a list, and in its template the list again, with a button that leads to the start. -/
def gallery : Program :=
  ⟨"gallery", "Home", [⟨"Home", [], [⟨"items", .list []⟩],
    .list "items" (.container .column [.list "items" (.text .label (.var "items")),
      .button "home" (some ⟨"Home", []⟩) none [.update "items" (.literal .null) "null"]]), []⟩], [], [], []⟩

/-- The program is accepted, its screen is entered and checked, and its variable is written before the list is
walked over. -/
theorem reaches_list : ∃ m screen template left,
    (RunRequest.first (ofOptions .default) gallery (.run none none) (.empty 5)).Reaches m ∧
      m.left = .walk screen 1 true (.list "items" template) :: left ∧
      m.state.store.values.map (·.1) = ["items"] := by
  refine ⟨_, _, _, _, .head (.made rfl) (.head (.opened rfl) (.head (.made_of_isOk ?_) (.head (.opened rfl)
    (.head (.made rfl) (.head (.opened rfl) (.head (.made_of_isOk ?_) (.head (.opened rfl)
      (.head (.opened rfl) (.head (.made_of_isOk ?_) (.head (.made_of_isOk ?_) (.head (.made rfl)
        (.head (.opened rfl) .refl)))))))))))), rfl, ?_⟩ <;> decide +kernel

/-- The button in the template is not pressed: the walk measures. -/
theorem list_measured_gallery : gallery.referenceErrors = .ok [] ∧ ∃ m screen template left,
    (RunRequest.first (ofOptions .default) gallery (.run none none) (.empty 5)).Reaches m ∧
      m.left = .walk screen 1 true (.list "items" template) :: left ∧
      m.state.store.values.map (·.1) = ["items"] ∧
      m.state.Measured (Run.walk screen 1 true (.list "items" template) m.state).2 := by
  have declared : gallery.referenceErrors = .ok [] := by decide +kernel
  obtain ⟨m, screen, template, left, reached, next, written⟩ := reaches_list
  have measured := (list_measured declared rfl reached next).1
  exact ⟨declared, m, screen, template, left, reached, next, written, measured⟩

end Engine

end Screenplay
