/-
The denylist at run time. Whatever a program does, and whether it was read from a text or not, a run at a
level that refuses hits leaves nothing behind but what its policy accepts. The tasks that are left at a
moment are vouched for: no navigation, call or code is recorded before the guard has let it through, and what
the guard has seen of it are the texts that it has at that moment. Every move keeps this, and keeps the
variables admitted.
-/
import Screenplay.Proofs.Guard.Denylist
import Screenplay.Proofs.Run.Records
import Screenplay.Proofs.Run.Refusals

namespace Screenplay

/-! ## What a policy allows -/

/-- The record of a call, with the texts of its arguments. -/
def callText (look : String → Option Value) (function : String) (args : List Expr) : String :=
  function ++ "(" ++ Text.join ", " (args.map (·.argumentText look)) ++ ")"

namespace Policy

section

variable (policy : Policy) (look : String → Option Value)

/-- Arguments whose texts are short and free of the denylist. -/
def AcceptsArguments (args : List Expr) : Prop :=
  ∀ arg ∈ args, (arg.argumentText look).length ≤ maxArgument ∧
    policy.findBlocked (arg.argumentText look) = none

/-- A navigation with a short target that is free of the denylist, and such arguments. -/
structure AllowsNavigation (n : Navigation) : Prop where
  short : n.target.length ≤ maxTarget
  clean : policy.findBlocked n.target = none
  args : policy.AcceptsArguments look n.args

/-- A call of a function whose name is free of the denylist, with few arguments of this kind. -/
structure AllowsCall (function : String) (args : List Expr) : Prop where
  clean : policy.findBlocked function = none
  few : args.length ≤ maxArguments
  args : policy.AcceptsArguments look args

/-- An event that tells of nothing that a policy does not allow: of a navigation to a short target that is
free of the denylist, of a call that is allowed, or of the beginning of a code that is free of it. -/
def AllowsEvent (kind : EventKind) (detail : String) : Prop :=
  match kind with
  | .navigation => detail.length ≤ maxTarget ∧ policy.findBlocked detail = none
  | .functionCalled =>
    ∃ function args, policy.AllowsCall look function args ∧ detail = callText look function args
  | .codeSkipped =>
    ∃ code, policy.findBlocked code = none ∧ detail = String.ofList (code.toList.take 80)
  | _ => True

end

variable {policy : Policy} {look : String → Option Value}

theorem acceptsArguments_nil : policy.AcceptsArguments look [] := List.forall_mem_nil _

theorem acceptsArguments_cons {arg : Expr} {args : List Expr}
    (short : (arg.argumentText look).length ≤ maxArgument)
    (clean : policy.findBlocked (arg.argumentText look) = none) (h : policy.AcceptsArguments look args) :
    policy.AcceptsArguments look (arg :: args) :=
  List.forall_mem_cons.mpr ⟨⟨short, clean⟩, h⟩

/-- What is told of code that is free of the denylist is free of it. -/
theorem AllowsEvent.code_clean {detail : String} (h : policy.AllowsEvent look .codeSkipped detail) :
    policy.findBlocked detail = none := by
  obtain ⟨code, clean, rfl⟩ := h
  refine findBlocked_of_piece clean ?_
  rw [String.toList_ofList]
  exact (List.take_prefix _ _).isInfix

end Policy

/-! ## Tasks that are vouched for -/

namespace Task

/-- The kinds of events that tell of what a program reaches out for. -/
def outwardKinds : List EventKind := [.navigation, .functionCalled, .codeSkipped]

/-- A task that records nothing of this by itself; those that it has to do are told by its parts. -/
def Plain : Task → Prop
  | .move (.log kind _) => kind ∉ outwardKinds
  | .move (.record _) | .arguments _ | .calling .. => False
  | _ => True

/-- Tasks that record only what a policy allows, with the values that variables have now. What the guard still
has to look at is taken to pass: otherwise the run stops there. Behind a record that is vouched for by these
values no variable is written before the next one. -/
inductive Vouched (policy : Policy) (look : String → Option Value) : List Task → Prop
  | plain {ts : List Task} (h : ∀ t ∈ ts, t.Plain) : Vouched policy look ts
  | stop (halt : Halt) (ts : List Task) : Vouched policy look (.move (.stop halt) :: ts)
  | express (shortage : Nat → Option Shortage) {ts : List Task} (later : Vouched policy look ts) :
    Vouched policy look (.move (.express shortage) :: ts)
  | check {checks : List Check} {ts : List Task}
    (later : (∀ c ∈ checks, c.Passes policy) → Vouched policy look ts) :
    Vouched policy look (.move (.check checks) :: ts)
  | record {n : Navigation} {ts : List Task} (allowed : policy.AllowsNavigation look n)
    (later : Vouched policy look ts) : Vouched policy look (.move (.record n) :: ts)
  | log {kind : EventKind} {detail : String} {ts : List Task} (allowed : policy.AllowsEvent look kind detail)
    (later : Vouched policy look ts) : Vouched policy look (.move (.log kind detail) :: ts)
  | arguments {args : List Expr} {ts : List Task}
    (later : policy.AcceptsArguments look args → Vouched policy look ts) :
    Vouched policy look (.arguments args :: ts)
  | calling {function : String} {texts : List String} {args : List Expr} {ts : List Task}
    (allowed : policy.AcceptsArguments look args → policy.AllowsEvent look .functionCalled
      (function ++ "(" ++ Text.join ", " (texts ++ args.map (·.argumentText look)) ++ ")"))
    (later : ∀ t ∈ ts, t.Plain) : Vouched policy look (.calling function texts args :: ts)

variable {policy : Policy} {look : String → Option Value} {ts us : List Task}

theorem plain_block (depth : Nat) (as : List Action) : ∀ t ∈ block depth as, t.Plain := by
  simp [block, Plain]

theorem plain_writing (name : String) (value : Value) : ∀ t ∈ writing name value, t.Plain := by
  simp [writing, Plain, outwardKinds]

/-- What passes the checks of an argument is an argument that the policy accepts. -/
theorem Vouched.argument {s : RunState} {arg : Expr}
    (later : (arg.argumentText s.store.get?).length ≤ maxArgument →
      policy.findBlocked (arg.argumentText s.store.get?) = none → Vouched policy s.store.get? ts) :
    Vouched policy s.store.get? (argument s arg ++ ts) := by
  unfold Task.argument judging
  refine .express _ ?_
  split
  · exact .stop _ ts
  · next short =>
    refine .check fun pass => later (Nat.le_of_not_lt short) ?_
    simpa using pass

/-- The parts of an action are vouched for. -/
theorem vouched_action (s : RunState) (depth : Nat) (a : Action) (h : ∀ t ∈ ts, t.Plain) :
    Vouched policy s.store.get? (partsOfAction s depth a ++ ts) := by
  have plain {us : List Task} (hu : ∀ t ∈ us, t.Plain) : Vouched policy s.store.get? (us ++ ts) :=
    .plain (List.forall_mem_append.mpr ⟨hu, h⟩)
  cases a with
  | navigate n =>
    rw [partsOfAction]
    split
    · exact .stop _ ts
    · next short =>
      -- the record stands behind the checks of its target and of its arguments, and may use that they have passed
      refine .check fun pass => .arguments fun accepted => ?_
      have clean : policy.findBlocked n.target = none := by simpa using pass
      have short := Nat.le_of_not_lt short
      exact .record ⟨short, clean, accepted⟩ (.log ⟨short, clean⟩ (.plain h))
  | update name value source =>
    refine plain ?_
    rw [partsOfAction, List.forall_mem_cons]
    refine ⟨trivial, ?_⟩
    split
    · simp [Plain, outwardKinds]
    · exact List.forall_mem_cons.mpr ⟨trivial, plain_writing name _⟩
    · exact plain_writing name _
  | call function args =>
    rw [partsOfAction]
    split
    · exact .check fun _ => .stop _ ts
    · next few =>
      -- the event is logged with the texts of the arguments, which are checked one by one before it
      refine .check fun pass => .calling (fun accepted => ⟨function, args, ?_, rfl⟩) h
      exact ⟨by simpa using pass, Nat.le_of_not_lt few, accepted⟩
  | branch condition thenActions elseActions =>
    exact plain (forall_deciding trivial (plain_block _ _) (plain_block _ _))
  | loop name range body =>
    refine plain ?_
    rw [partsOfAction]
    split
    · exact List.forall_mem_singleton.mpr trivial
    · split <;> exact List.forall_mem_singleton.mpr trivial
  | code text =>
    refine .check fun pass => .log ⟨text, ?_, rfl⟩ (.plain h)
    have clean := pass (.text text "action code") (by simp [Check.string])
    simpa using clean

theorem plain_entering {p : Program} {name : String} {next : Screen → List Task}
    (h : ∀ screen, ∀ t ∈ next screen, t.Plain) : ∀ t ∈ entering p name next, t.Plain := by
  unfold entering
  cases p.screen? name with
  | none => exact List.forall_mem_singleton.mpr trivial
  | some screen => simpa [Plain] using h screen

/-- So are those of every plain task. -/
theorem Plain.vouched_parts {t : Task} {s : RunState} (h : t.Plain) (parts : t.parts? s = some us)
    (later : ∀ t ∈ ts, t.Plain) : Vouched policy s.store.get? (us ++ ts) := by
  -- only the parts of an action have to be looked at: all others are plain again
  have plain (hu : ∀ t ∈ us, t.Plain) : Vouched policy s.store.get? (us ++ ts) :=
    .plain (List.forall_mem_append.mpr ⟨hu, later⟩)
  cases t with
  | move => cases parts
  | arguments | calling => cases h
  | action depth a => cases parts; exact vouched_action s depth a later
  | accept p risk =>
    refine plain ?_
    cases risk <;> cases parts
    · exact List.forall_mem_singleton.mpr trivial
    · refine List.forall_mem_singleton.mpr ?_
      split <;> trivial
  | missing name value =>
    cases parts
    refine plain ?_
    split
    · exact List.forall_mem_nil _
    · exact plain_writing name value
  | seed vs => cases vs <;> cases parts <;> exact plain (by simp [Plain])
  | actions depth as => cases as <;> cases parts <;> exact plain (by simp [Plain, outwardKinds])
  | rounds name depth body n i =>
    cases n with
    | zero => cases parts; exact plain (List.forall_mem_nil _)
    | succ n => cases parts; exact plain (by simp [Plain, writing, block, outwardKinds])
  | measure binding => cases parts; exact plain (by simp [Plain])
  | visit screen pressing node =>
    cases parts
    refine plain (forall_visit (fun _ => trivial) (fun _ => trivial) (fun _ _ => trivial) (fun _ => trivial) ?_)
    exact fun navigation name as => forall_press (fun _ => trivial) (plain_block 1)
  | branch screen depth pressing condition thenBranch elseBranch =>
    cases parts
    refine plain (forall_deciding trivial (List.forall_mem_singleton.mpr trivial) ?_)
    simp [Plain]
  | walk screen depth pressing node =>
    cases parts
    refine plain ?_
    have below : ∀ t ∈ partsBelow screen (depth + 1) pressing node, t.Plain := by
      cases node <;> simp [partsBelow, Plain]
    have rendered : ∀ t ∈ (if s.engine.options.debug then [move (.log .uiRendered node.kind)] else []),
        t.Plain := by
      split <;> simp [Plain, outwardKinds]
    simp only [List.forall_mem_append, List.forall_mem_cons, List.cons_append]
    exact ⟨trivial, ⟨rendered, trivial, below⟩, trivial, List.forall_mem_nil _⟩
  | present p name => cases parts; exact plain (plain_entering fun screen => by simp [Plain])
  | handle p name called =>
    cases parts
    refine plain (plain_entering fun screen => List.forall_mem_append.mpr ⟨?_, by simp [Plain]⟩)
    exact forall_handler trivial (plain_block 1)

/-- What is vouched for is so when its first task is opened. -/
theorem Vouched.opened {t : Task} {s : RunState} (h : Vouched policy s.store.get? (t :: ts))
    (parts : t.parts? s = some us) : Vouched policy s.store.get? (us ++ ts) := by
  cases h with
  | plain h =>
    rw [List.forall_mem_cons] at h
    exact h.1.vouched_parts parts h.2
  | stop | express | check | record | log => cases parts
  | @arguments args _ later =>
    cases args with
    | nil => cases parts; exact later Policy.acceptsArguments_nil
    | cons arg args =>
      cases parts
      rw [List.append_assoc]
      -- the first argument is checked before the others, so what comes later may use that it has passed
      refine .argument fun short clean => .arguments fun accepted => ?_
      exact later (Policy.acceptsArguments_cons short clean accepted)
  | @calling function texts args _ allowed later =>
    cases args with
    | nil =>
      cases parts
      have allowed := allowed Policy.acceptsArguments_nil
      rw [List.map_nil, List.append_nil] at allowed
      exact .log allowed (.plain later)
    | cons arg args =>
      cases parts
      rw [List.append_assoc]
      refine .argument fun short clean => .calling (fun accepted => ?_) later
      rw [List.append_assoc]
      exact allowed (Policy.acceptsArguments_cons short clean accepted)

end Task

/-! ## Moments -/

/-- A state whose guards have a policy that admits all variables. -/
structure RunState.Guarded (policy : Policy) (s : RunState) : Prop where
  guard : s.engine.guard.policy = policy
  writeGuard : s.engine.writeGuard.policy = policy
  values : policy.AdmitsAll s.store.values

/-- Checks leave the policies of the guards as they are. -/
theorem RunState.Guarded.checked {policy : Policy} {s : RunState} (h : s.Guarded policy) {guard : Guard}
    (same : guard.policy = s.engine.guard.policy) :
    { s with engine := { s.engine with guard } }.Guarded policy := by
  refine ⟨same.trans h.guard, ?_, h.values⟩
  have write := h.writeGuard
  unfold Engine.writeGuard at write ⊢
  cases hg : s.engine.storeGuard with
  | none => exact same.trans h.guard
  | some other => rwa [hg] at write

namespace Move

variable {policy : Policy} (hl : policy.lenient = false) {s : RunState}
include hl

/-- Every move keeps the variables admitted. -/
theorem guarded_effect (m : Move) (h : s.Guarded policy) : (m.effect s).Guarded policy := by
  cases m with
  | status entered =>
    obtain ⟨events, eq⟩ := s.setStatus_eq entered
    rw [effect, eq]
    exact ⟨h.guard, h.writeGuard, h.values⟩
  | log kind detail =>
    obtain ⟨events, eq, -⟩ := s.log_eq kind detail
    rw [effect, eq]
    exact ⟨h.guard, h.writeGuard, h.values⟩
  | check checks => exact h.checked (s.engine.guard.check_policy checks)
  | vet screen => exact h.checked (s.engine.guard.checkScreen_policy screen)
  | write name value =>
    have kept := s.store.set_policy s.engine.writeGuard name value
    -- a guard that refuses hits lets nothing into the store that is not admitted
    have refuses : s.engine.writeGuard.policy.lenient = false := by rw [h.writeGuard, hl]
    have values : policy.AdmitsAll (s.store.set s.engine.writeGuard name value).store.values := by
      rw [← h.writeGuard]
      refine Store.set_admitsAll refuses name value ?_
      rw [h.writeGuard]
      exact h.values
    have written := kept.trans h.writeGuard
    have guard := h.guard
    unfold Engine.writeGuard at written
    rw [effect, Engine.afterWrite]
    -- a write passes the guard of the store, if it has one of its own
    split
    · exact ⟨guard, written, values⟩
    · next own =>
      refine ⟨written, ?_, values⟩
      show (s.engine.storeGuard.getD _).policy = policy
      rw [own]
      exact written
  | depth | track | pause | express | record | stop => exact ⟨h.guard, h.writeGuard, h.values⟩

/-- Checks that do not stop the run pass. -/
theorem passes_of_verdict (h : s.Guarded policy) {checks : List Check}
    (hv : (Move.check checks).verdict s = .ok ()) : ∀ c ∈ checks, c.Passes policy := by
  have ok : (s.engine.guard.check checks).1 = .ok () := by
    rw [verdict] at hv
    cases hc : (s.engine.guard.check checks).1 with
    | ok done => rfl
    | error violation =>
      rw [hc] at hv
      cases hv
  rw [Guard.check_eq_ok, h.guard, Policy.enforced_eq_self hl] at ok
  exact ok

end Move

/-- A moment at which the variables are admitted, and what is left to do is vouched for with their values. -/
structure Moment.Contained (policy : Policy) (m : Moment) : Prop where
  state : m.state.Guarded policy
  left : Task.Vouched policy m.state.store.get? m.left

namespace Moment

variable {policy : Policy} (hl : policy.lenient = false) {m n : Moment}
include hl

/-- The next moment is of this kind, too. -/
theorem Contained.next (h : m.Contained policy) (step : Next m n) : n.Contained policy := by
  cases step with
  | opened parts => exact ⟨h.state, h.left.opened parts⟩
  | @made move left s hv =>
    refine ⟨Move.guarded_effect hl move h.state, ?_⟩
    -- values change only where all that is left is plain
    cases h.left with
    | plain plain => exact .plain (List.forall_mem_cons.mp plain).2
    | stop => cases hv
    | express _ later => exact later
    | check later => exact later (Move.passes_of_verdict hl h.state hv)
    | record _ later => exact later
    | log _ later =>
      show Task.Vouched policy (s.log _ _).store.get? left
      rw [s.log_store]
      exact later

/-- So is every later one. -/
theorem Contained.reaches (h : m.Contained policy) (reached : m.Reaches n) : n.Contained policy :=
  reached.keeps (P := Contained policy) (fun _ _ step h => h.next hl step) h

end Moment

/-! ## Results -/

/-- A result that keeps to a policy, of a run that starts at some moment: every navigation of it was allowed
with the values that variables had at the moment at which it was recorded, and so was every event that tells of
a navigation, a call or code; and the variables that the run ends with are admitted. The moment is known by the
records that had been made before it. -/
structure RunResult.Contained (policy : Policy) (first : Moment) (r : RunResult) : Prop where
  navigations : ∀ (i : Nat) (target : String), r.navigations[i]? = some target →
    ∃ n left s, first.Reaches ⟨.move (.record n) :: left, s⟩ ∧ s.navigations = r.navigations.take i ∧
      n.target = target ∧ policy.AllowsNavigation s.store.get? n
  events : ∀ (i : Nat) (event : Event), r.events[i]? = some event → event.kind ∉ closingKinds →
    ∃ left s, first.Reaches ⟨.move (.log event.kind event.detail) :: left, s⟩ ∧
      s.events = r.events.take i ∧ policy.AllowsEvent s.store.get? event.kind event.detail
  values : policy.AdmitsAll r.values

/-- The last moment of a contained run tells a contained result. -/
theorem RunRequest.contained_of_ends {policy : Policy} (hl : policy.lenient = false) {engine : Engine}
    {p : Program} {q : RunRequest} {store : Store} {last : Moment}
    (h : (q.first engine p store).Contained policy) (reached : (q.first engine p store).Reaches last)
    (ends : last.Ends) (error : Option RunError) :
    (last.outcome.2.finish error).1.Contained policy (q.first engine p store) := by
  constructor
  · intro i target hi
    obtain ⟨n, left, s, made, named, before⟩ := exists_recorded reached ends error hi
    refine ⟨n, left, s, made, before, named, ?_⟩
    cases (h.reaches hl made).left with
    | plain plain => exact absurd (plain _ List.mem_cons_self) id
    | record allowed _ => exact allowed
  · intro i event hi inner
    obtain ⟨left, s, made, before⟩ := exists_logged reached ends error inner hi
    refine ⟨left, s, made, before, ?_⟩
    cases (h.reaches hl made).left with
    | log allowed _ => exact allowed
    | plain plain =>
      -- an event of another kind tells nothing that had to be allowed
      have other : event.kind ∉ Task.outwardKinds := plain _ List.mem_cons_self
      unfold Policy.AllowsEvent
      split
      · next kind => exact absurd (by rw [kind]; decide) other
      · next kind => exact absurd (by rw [kind]; decide) other
      · next kind => exact absurd (by rw [kind]; decide) other
      · trivial
  · rw [(last.outcome.2.finish_tells error).values]
    have guarded := (h.reaches hl reached).state
    cases ends with
    | done s => exact guarded.values
    | stopped hv =>
      rw [Moment.outcome_stopped hv]
      exact (Move.guarded_effect hl _ guarded).values

/-! ## Engines -/

namespace Engine

/-- An engine whose guards have the policy of its level and whose runs start without variables. -/
structure Fresh (engine : Engine) : Prop where
  guard : engine.guard.policy = .ofLevel engine.options.level
  storeGuard : ∀ guard, engine.storeGuard = some guard → guard.policy = .ofLevel engine.options.level
  shared : ∀ store, engine.shared = some store → store.values = []

theorem fresh_ofOptions (options : RunOptions) : (ofOptions options).Fresh :=
  ⟨rfl, nofun, nofun⟩

namespace Fresh

variable {engine : Engine} (fresh : engine.Fresh)
include fresh

theorem writeGuard : engine.writeGuard.policy = .ofLevel engine.options.level := by
  unfold Engine.writeGuard
  cases hg : engine.storeGuard with
  | none => exact fresh.guard
  | some guard => exact fresh.storeGuard guard hg

theorem storeForRun {store : Store} (h : engine.storeForRun = .ok store) : store.values = [] := by
  rcases storeForRun_eq_ok h with shared | ⟨capacity, rfl⟩
  · exact fresh.shared store shared
  · rfl

/-- Nothing is written or recorded yet at the first moment of a run of a fresh engine. -/
theorem first {store : Store} (hs : engine.storeForRun = .ok store) (p : Program) (q : RunRequest) :
    (q.first engine p store).Contained (.ofLevel engine.options.level) := by
  refine ⟨⟨fresh.guard, fresh.writeGuard, ?_⟩, .plain ?_⟩
  · intro e he
    rw [show (q.first engine p store).state.store.values = store.values from rfl, fresh.storeForRun hs] at he
    cases he
  · cases q <;> simp [RunRequest.first, RunRequest.tasks, Task.showing, Task.handling, Task.starting, Task.Plain,
      Task.outwardKinds]

end Fresh

/-- A program whose only button learns a name, calls a function with it, has some code, and hands the name on to
another screen. -/
def guestbook : Program :=
  ⟨"guestbook", "Home",
    [⟨"Home", [], [],
      .button "sign" (some ⟨"Page", [.var "guest"]⟩) none
        [.update "guest" (.literal (.text "Ada")) "\"Ada\"", .call "greet" [.var "guest"], .code "visits += 1"],
      []⟩],
    [⟨"guest", .text "nobody"⟩], [], []⟩

end Engine

end Screenplay
