/-
Expressions without a value. Evaluation fails exactly if a negation, an operator or a call stands anywhere in the
expression, and it names the first of them, from the outside in and from left to right. The assignment of such an
expression is traced, then that it has no value is traced; nothing else changes and the run goes on, if there is
room to tell of the operation.
-/
import Screenplay.Proofs.Program.Parts
import Screenplay.Proofs.Run.Closing
import Screenplay.Proofs.Run.Tasks

namespace Screenplay

/-! ## The first operation -/

namespace Expr

/-- Whether an expression is an operation: a negation, an operator with its sides, or a call. -/
def isOperation : Expr → Bool
  | .not _ | .binary .. | .call .. => true
  | .literal _ | .var _ | .field .. | .interpolation _ => false

/-- An operation in an expression before which there is none, from the outside in and from left to right. -/
def FirstOperation (e u : Expr) : Prop :=
  ∃ place, partAt? operands e place = some u ∧ u.isOperation = true ∧
    ∀ other < place, ∀ x, partAt? operands e other = some x → x.isOperation = false

/-- The first operation among the nodes of an expression. -/
def firstOperation? (e : Expr) : Option Expr := ((e.nodes 1).map (·.2)).find? isOperation

/-- The nodes of an expression are everything in it, in the order of their places. -/
theorem lists_nodes (depth : Nat) (e : Expr) :
    Lists (fun place x => partAt? operands e place = some x) ((e.nodes depth).map (·.2)) := by
  refine Lists.everything operand_smaller (fun depth e => (e.nodes depth).map (·.2)) ?_ depth e
  intro depth x
  rw [nodes_eq, List.map_cons, List.map_flatMap]

theorem firstOperation?_eq_some {e u : Expr} : e.firstOperation? = some u ↔ e.FirstOperation u :=
  (lists_nodes 1 e).find?_eq_some_iff

/-- There is a first operation exactly if there is any. -/
theorem exists_firstOperation {e : Expr} :
    (∃ u, e.FirstOperation u) ↔ ∃ x, Holds operands e x ∧ x.isOperation = true := by
  obtain ⟨found, listed, -, mem⟩ := lists_nodes 1 e
  simp only [← firstOperation?_eq_some, ← Option.isSome_iff_exists]
  rw [firstOperation?, ← listed, List.find?_isSome]
  simp only [List.mem_map]
  constructor
  · rintro ⟨_, ⟨⟨place, x⟩, hm, rfl⟩, operation⟩
    exact ⟨x, ⟨place, (mem place x).mp hm⟩, operation⟩
  · rintro ⟨x, ⟨place, hx⟩, operation⟩
    exact ⟨x, ⟨(place, x), (mem place x).mpr hx, rfl⟩, operation⟩

/-! ## Evaluation -/

/-- What has no value, if the evaluation failed. -/
def Unsupported.of? {α : Type} : Except Unsupported α → Option Expr
  | .ok _ => none
  | .error unsupported => some unsupported.expr

theorem Unsupported.of?_eq_some {α : Type} {outcome : Except Unsupported α} {u : Expr} :
    of? outcome = some u ↔ outcome = .error ⟨u⟩ := by
  rcases outcome with ⟨⟨v⟩⟩ | a <;> simp [of?]

/-- Of two evaluations one after the other the first one that fails counts. -/
theorem Unsupported.of?_bind {α β : Type} {next : α → Except Unsupported β} {later : Option Expr}
    (h : ∀ a, of? (next a) = later) (first : Except Unsupported α) :
    of? (first >>= next) = (of? first).or later := by
  cases first with
  | error unsupported => rfl
  | ok a =>
    show of? (next a) = none.or later
    rw [h a, Option.none_or]

/-- What always has a value does not count. -/
theorem Unsupported.of?_bind_of_total {α β : Type} {next : α → Except Unsupported β}
    (h : ∀ a, of? (next a) = none) (first : Except Unsupported α) : of? (first >>= next) = of? first := by
  rw [of?_bind h, Option.or_none]

section

variable (look : String → Option Value)

mutual

/-- Evaluation fails at the first operation among the nodes, wherever the expression stands. -/
theorem of?_evaluate (depth : Nat) :
    ∀ e : Expr, Unsupported.of? (e.evaluate look) = ((e.nodes depth).map (·.2)).find? isOperation
  | .literal _ | .var _ => by rw [evaluate, nodes]; rfl
  | .not operand => by rw [evaluate, nodes]; rfl
  | .binary op left right => by rw [evaluate, nodes]; rfl
  | .call name args => by rw [evaluate, nodes]; rfl
  | .field target name => by
    have found (value : Value) : Unsupported.of? (match value.member? name with
        | some member => (return member : Except Unsupported Value)
        | none => return .text (text (.field target name))) = none := by
      split <;> rfl
    rw [evaluate, nodes, List.map_cons, List.find?_cons_of_neg Bool.false_ne_true, ← of?_evaluate (depth + 1) target]
    exact Unsupported.of?_bind_of_total found _
  | .interpolation parts => by
    rw [evaluate, nodes, List.map_cons, List.find?_cons_of_neg Bool.false_ne_true, ← of?_displays (depth + 1) parts]
    exact Unsupported.of?_bind_of_total (fun _ => rfl) _

/-- Some expressions fail at the first operation among the nodes of all of them. -/
theorem of?_displays (depth : Nat) :
    ∀ es : List Expr, Unsupported.of? (displays look es) = ((nodesOf depth es).map (·.2)).find? isOperation
  | [] => rfl
  | e :: es => by
    rw [displays, nodesOf, List.map_append, List.find?_append, ← of?_evaluate depth e, ← of?_displays depth es]
    refine Unsupported.of?_bind (fun value => ?_) _
    exact Unsupported.of?_bind_of_total (fun _ => rfl) _

end

/-- Evaluation fails exactly with the first operation. -/
theorem evaluate_eq_error_iff {e u : Expr} : e.evaluate look = .error ⟨u⟩ ↔ e.FirstOperation u := by
  rw [← Unsupported.of?_eq_some, of?_evaluate look 1, ← firstOperation?_eq_some, firstOperation?]

/-- In the room that there is, it fails with the first operation unless it runs short before it can tell so. -/
theorem evaluateIn_eq_error_iff {room : Nat} {e u : Expr} :
    e.evaluateIn look room = .ok (.error ⟨u⟩) ↔ e.FirstOperation u ∧ e.valueShortage? look room = none := by
  rw [evaluateIn, ← evaluate_eq_error_iff look]
  cases e.valueShortage? look room with
  | some shortage => exact iff_of_false nofun nofun
  | none => simp only [Except.ok.injEq, and_true]

end

end Expr

/-! ## Assignments -/

/-- A state after the run has turned to its surroundings some more times. -/
def RunState.turned (s : RunState) (times : Nat) : RunState :=
  { s with engine := { s.engine with contacts := s.engine.contacts + times } }

/-- A checkpoint that lets a run pass leaves nothing behind but that it was there. -/
theorem Run.checkpoint_ok {s : RunState} (h : (checkpoint s).1 = .ok ()) : checkpoint s = (.ok (), s.turned 1) := by
  rw [Move.checkpoint_run] at h ⊢
  -- a wish for the end would have stopped the run, so the question has changed nothing but its count
  have asked : s.engine.inquire.cancelled = false := by
    refine Bool.eq_false_iff.mpr fun asked => ?_
    rw [Move.paused, if_pos asked] at h
    cases h
  have same : s.engine.inquire = { s.engine with contacts := s.engine.contacts + 1 } := by
    have before : s.engine.cancelled = false := (Bool.or_eq_false_iff.mp asked).1
    show { s.engine.contact with cancelled := s.engine.inquire.cancelled } = _
    rw [asked, ← before]
    rfl
  rw [show Move.paused s = .ok () from h, same]
  rfl

namespace Run

/-- The event of an assignment that is executed. -/
def executed (name source : String) : Event := ⟨.actionExecuted, name ++ " = " ++ source⟩

/-- The event of an assignment whose expression has an operation. -/
def skipped (name source : String) (operation : Expr) : Event :=
  ⟨.unsupportedExpression, s!"{name} = {source}: {RunError.unsupportedText operation}"⟩

/-- What the value of an expression is short of, in the room that there is when the run has turned to its
surroundings some more times. -/
def shortageAt (s : RunState) (times : Nat) (e : Expr) : Option Shortage :=
  e.valueShortage? s.store.get? (s.engine.around.room (s.engine.contacts + times))

/-- An assignment without a value is traced, and nothing else is done, unless it cannot be told that there is no
value: then the run breaks off. -/
theorem action_update_unsupported {e u : Expr} (h : e.FirstOperation u) (depth : Nat) (name source : String)
    (s : RunState) :
    action depth (.update name e source) s =
      match shortageAt s 0 e with
      | none => (.ok (), (s.turned 1).traced [skipped name source u])
      | some shortage => (.error (.breakdown (.short shortage)), s.turned 1) := by
  have fails : e.evaluate s.store.get? = .error ⟨u⟩ := (Expr.evaluate_eq_error_iff _).mpr h
  rw [action, update, Task.look_bind_run, bind_run, Move.express_run, fails]
  have short : e.valueShortage? s.store.get? (s.engine.around.room s.engine.contacts) = shortageAt s 0 e := rfl
  rw [short]
  cases shortageAt s 0 e with
  | some shortage => rfl
  | none =>
    show (Except.ok (), (s.turned 1).log _ _) = _
    rw [RunState.log_eq_traced]
    rfl

/-- In a block it is traced first that the assignment is executed. -/
theorem actions_update (depth : Nat) (name source : String) (e : Expr) (rest : List Action) {s : RunState}
    (paused : (checkpoint s).1 = .ok ()) :
    actions depth (.update name e source :: rest) s =
      (action depth (.update name e source) >>= fun _ => actions depth rest)
        ((s.turned 2).traced [executed name source]) := by
  have logged : (s.turned 2).log .actionExecuted (Action.update name e source).text
      = (s.turned 2).traced [executed name source] :=
    (s.turned 2).log_eq_traced ..
  rw [actions, bind_run, checkpoint_ok paused, ← logged]
  rfl

/-- If it can be told that there is no value, the block goes on after it. -/
theorem actions_update_unsupported {e u : Expr} (h : e.FirstOperation u) (depth : Nat) (name source : String)
    (rest : List Action) {s : RunState} (paused : (checkpoint s).1 = .ok ()) (told : shortageAt s 2 e = none) :
    actions depth (.update name e source :: rest) s =
      actions depth rest ((s.turned 3).traced [executed name source, skipped name source u]) := by
  have assigned : action depth (.update name e source) ((s.turned 2).traced [executed name source])
      = (.ok (), ((s.turned 3).traced [executed name source]).traced [skipped name source u]) := by
    rw [action_update_unsupported h, show shortageAt ((s.turned 2).traced _) 0 e = none from told]
    rfl
  rw [actions_update depth name source e rest paused, bind_run, assigned, RunState.traced_traced,
    List.singleton_append]

/-- Evaluation fails exactly if there is an operation anywhere in an expression, and then it names the first one,
as long as there is room to tell so. If the operation can be told in the room that there is, an assignment of such an
expression does not stop the run. Its two events follow each other in the trace as far as there is space, and all else
stays: the variables, the history, the memory, the navigations and the engine. Otherwise the run breaks off in the
middle, with nothing told about the operation. -/
theorem unsupported_anywhere (e : Expr) :
    (∀ look, (∃ unsupported, e.evaluate look = .error unsupported) ↔
      ∃ x, Holds Expr.operands e x ∧ x.isOperation = true) ∧
    (∀ look u, e.evaluate look = .error ⟨u⟩ ↔ e.FirstOperation u) ∧
    (∀ look room u, e.evaluateIn look room = .ok (.error ⟨u⟩) ↔
      e.FirstOperation u ∧ e.valueShortage? look room = none) ∧
    ∀ u, e.FirstOperation u → ∀ (depth : Nat) (name source : String) (s : RunState),
      (shortageAt s 0 e = none →
        action depth (.update name e source) s = (.ok (), (s.turned 1).traced [skipped name source u])) ∧
      ((checkpoint s).1 = .ok () → shortageAt s 2 e = none →
        actions depth [.update name e source] s =
            (.ok (), (s.turned 3).traced [executed name source, skipped name source u]) ∧
          (s.events.length + 2 ≤ s.engine.options.maxEvents.toNat →
            actions depth [.update name e source] s =
              (.ok (),
                { s.turned 3 with events := s.events ++ [executed name source, skipped name source u] }))) ∧
      ∀ shortage, shortageAt s 0 e = some shortage →
        action depth (.update name e source) s = (.error (.breakdown (.short shortage)), s.turned 1) := by
  refine ⟨?_, ?_, ?_, ?_⟩
  · intro look
    rw [← Expr.exists_firstOperation]
    constructor
    · rintro ⟨⟨u⟩, fails⟩
      exact ⟨u, (Expr.evaluate_eq_error_iff look).mp fails⟩
    · rintro ⟨u, first⟩
      exact ⟨⟨u⟩, (Expr.evaluate_eq_error_iff look).mpr first⟩
  · intro look u
    exact Expr.evaluate_eq_error_iff look
  · intro look room u
    exact Expr.evaluateIn_eq_error_iff look
  -- the assignment turns to the surroundings twice before its value: at the checkpoint and for its own text
  · intro u first depth name source s
    refine ⟨fun told => ?_, fun paused told => ?_, fun shortage short => ?_⟩
    · rw [action_update_unsupported first, told]
    · have run := actions_update_unsupported first depth name source [] paused told
      refine ⟨run, fun space => ?_⟩
      have all : (s.turned 3).traceWith [executed name source, skipped name source u]
          = s.events ++ [executed name source, skipped name source u] := RunState.traceWith_of_room space
      rw [run, RunState.traced, all]
      rfl
    · rw [action_update_unsupported first, short]

/-- A text in which a field of a call is embedded. -/
def embeddedCall : Expr := .interpolation [.literal (.text "is "), .field (.call "f" [.not (.var "a")]) "b"]

/-- A state in which nothing has happened yet. -/
def untouched : RunState := ⟨Engine.ofOptions .default, Store.empty 10, 0, [], [], []⟩

theorem untouched_paused : (checkpoint untouched).1 = .ok () := by
  have ok : (checkpoint untouched).1.isOk = true := by decide +kernel
  cases hc : (checkpoint untouched).1 with
  | ok done => rfl
  | error halt =>
    rw [hc] at ok
    cases ok

/-- The call is the first operation in it, before its argument. It is assigned to no variable, and two events tell. -/
theorem unsupported_anywhere_embeddedCall :
    embeddedCall.evaluate untouched.store.get? = .error ⟨.call "f" [.not (.var "a")]⟩ ∧
      actions 1 [.update "x" embeddedCall "y"] untouched =
        (.ok (), { untouched.turned 3 with events :=
          [⟨.actionExecuted, "x = y"⟩, ⟨.unsupportedExpression, "x = y: Unsupported expression 'f(!a)'"⟩] }) := by
  obtain ⟨-, fails, -, assigned⟩ := unsupported_anywhere embeddedCall
  have first : embeddedCall.FirstOperation (.call "f" [.not (.var "a")]) := Expr.firstOperation?_eq_some.mp rfl
  have texts : [executed "x" "y", skipped "x" "y" (.call "f" [.not (.var "a")])]
      = [⟨.actionExecuted, "x = y"⟩, ⟨.unsupportedExpression, "x = y: Unsupported expression 'f(!a)'"⟩] := by
    decide +kernel
  constructor
  · exact (fails _ _).mpr first
  · rw [← texts]
    exact ((assigned _ first 1 "x" "y" untouched).2.1 untouched_paused rfl).2 (by decide)

/-- A path of some names after the first one. -/
def path : Nat → Expr
  | 0 => .var "a"
  | names + 1 => .field (path names) "a"

/-- The sum of a long path and one is an operation by itself, but there is no room to tell so: a run that assigns
it breaks off after it has traced that the assignment is executed, and traces no more of it. -/
theorem not_unsupported_longPath :
    let sum := Expr.binary .add (path 400) (.literal (.int 1))
    sum.FirstOperation sum ∧
      ∃ s, actions 1 [.update "x" sum sum.text] untouched = (.error (.breakdown (.short .stack)), s) ∧
        s.events = [executed "x" sum.text] := by
  intro sum
  have first : sum.FirstOperation sum := Expr.firstOperation?_eq_some.mp rfl
  have short : shortageAt untouched 2 sum = some .stack := by decide +kernel
  refine ⟨first, ((untouched.turned 2).traced [executed "x" sum.text]).turned 1, ?_, rfl⟩
  rw [actions_update 1 "x" sum.text sum [] untouched_paused, bind_run, action_update_unsupported first,
    show shortageAt ((untouched.turned 2).traced _) 0 sum = some .stack from short]

end Run

end Screenplay
