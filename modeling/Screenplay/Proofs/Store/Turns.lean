/-
Listeners of any kind. A listener that hears of a change may make calls on the store that it observes, and it
may raise an error in the end; what it does may depend on all that has been heard before. A variable that it
tries to write is refused and stays as it is. So a write leaves the store with its change, and with nothing
else, as long as no listener clears the store or adds to its memory: these two calls are not refused. The
listeners of a store react in one of these ways.
-/
import Screenplay.Proofs.Store.Log

namespace Screenplay

namespace Store

/-! ## Turns -/

/-- What a listener does when it hears of a change: its calls on the store, one after the other, and the
error that it raises in the end, if there is one. -/
structure Turn where
  calls : List Call
  error : Option RunError

/-- How listeners behave: the turn that follows some deliveries is that of the last one. -/
def Behaviour := List Delivery → Turn

/-- What is left of a behaviour after some deliveries. -/
def Behaviour.after (behave : Behaviour) (earlier : List Delivery) : Behaviour := fun heard =>
  behave (earlier ++ heard)

/-- A call on the store by a listener that hears of a change. -/
def attempt (s : Store) : Call → Except RunError Store
  | .set name _ => .error (.listenerWrite name)
  | .track amount => .ok (s.track amount)
  | .clear => .ok s.clear
  | .subscribe reaction => .ok (s.subscribe reaction)
  | .unsubscribe key => .ok (s.unsubscribe key)

/-- The store after such a call, whatever the listener makes of an error. -/
def afterAttempt (s : Store) (c : Call) : Store := (s.attempt c).toOption.getD s

/-- The store after some such calls. -/
def afterAttempts (s : Store) (calls : List Call) : Store := calls.foldl afterAttempt s

/-- Tells some listeners of a change, one after the other, up to the first that raises an error. -/
def tell (behave : Behaviour) (guard : Guard) (change : Change) (s : Store) (heard : List Delivery) :
    List Listener → Write
  | [] => ⟨.ok change, s, guard, heard⟩
  | l :: later =>
    let heard := heard ++ [⟨l, change⟩]
    let s := s.afterAttempts (behave heard).calls
    match (behave heard).error with
    | none => tell behave guard change s heard later
    | some e => ⟨.error e, s, guard, heard⟩

/-- Writes a variable under a guard, with listeners that behave in some way. -/
def setBy (behave : Behaviour) (s : Store) (guard : Guard) (name : String) (value : Value) : Write :=
  match guard.check (Check.state name value) with
  | (.error violation, guard) => ⟨.error (.refused violation), s, guard, []⟩
  | (.ok (), guard) =>
    (s.commit (s.changeTo name value)).tell behave guard (s.changeTo name value) [] s.listeners

/-- The turns that the listeners take over some deliveries, after earlier ones. -/
def turns (behave : Behaviour) (earlier : List Delivery) : List Delivery → List Turn
  | [] => []
  | d :: ds => behave (earlier ++ [d]) :: turns behave (earlier ++ [d]) ds

/-- The calls that the listeners make over some deliveries. -/
def callsOver (behave : Behaviour) (earlier deliveries : List Delivery) : List Call :=
  (turns behave earlier deliveries).flatMap (·.calls)

theorem callsOver_cons (behave : Behaviour) (earlier : List Delivery) (d : Delivery) (ds : List Delivery) :
    callsOver behave earlier (d :: ds) =
      (behave (earlier ++ [d])).calls ++ callsOver behave (earlier ++ [d]) ds := rfl

/-- A call that is made over some deliveries is made in the turn that follows some of them. -/
theorem exists_turn_of_mem_callsOver {behave : Behaviour} {earlier deliveries : List Delivery} {c : Call}
    (h : c ∈ callsOver behave earlier deliveries) :
    ∃ told, told <+: deliveries ∧ c ∈ (behave (earlier ++ told)).calls := by
  induction deliveries generalizing earlier with
  | nil => cases h
  | cons d ds ih =>
    rw [callsOver_cons] at h
    rcases List.mem_append.mp h with now | later
    · exact ⟨[d], List.cons_prefix_cons.mpr ⟨rfl, List.nil_prefix⟩, now⟩
    · obtain ⟨told, among, made⟩ := ih later
      rw [List.append_assoc] at made
      exact ⟨d :: told, List.cons_prefix_cons.mpr ⟨rfl, among⟩, made⟩

theorem afterAttempts_append (s : Store) (first second : List Call) :
    s.afterAttempts (first ++ second) = (s.afterAttempts first).afterAttempts second :=
  List.foldl_append

/-! ## Reactions -/

/-- The turn of a listener that reacts to a change. -/
def turnOf (change : Change) : Reaction → Turn
  | .record | .cancel => ⟨[], none⟩
  | .write name => ⟨[.set name change.new], some (.listenerWrite name)⟩
  | .unsubscribe key => ⟨[.unsubscribe key], none⟩
  | .clear => ⟨[.clear], none⟩

/-- The behaviour of listeners that react: they do not remember what they have heard. -/
def reacting : Behaviour := fun heard =>
  (heard.getLast?.map fun d => turnOf d.change d.listener.reaction).getD ⟨[], none⟩

theorem reacting_concat (heard : List Delivery) (d : Delivery) :
    reacting (heard ++ [d]) = turnOf d.change d.listener.reaction := by
  simp [reacting]

theorem tell_reacting (earlier : List Delivery) (guard : Guard) (change : Change) (s : Store)
    (heard : List Delivery) (listeners : List Listener) :
    tell (reacting.after earlier) guard change s heard listeners = notify guard change s heard listeners := by
  induction listeners generalizing s heard with
  | nil => rfl
  | cons l later ih =>
    obtain ⟨key, reaction⟩ := l
    rw [tell, notify, Behaviour.after, ← List.append_assoc, reacting_concat]
    cases reaction with
    | write name => rfl
    | record | cancel | clear => exact ih _ _
    | unsubscribe key => exact ih _ _

/-- A store is written with the reactions of its listeners. -/
theorem setBy_reacting (earlier : List Delivery) (s : Store) (guard : Guard) (name : String) (value : Value) :
    s.setBy (reacting.after earlier) guard name value = s.set guard name value := by
  unfold setBy set
  rcases guard.check (Check.state name value) with ⟨violation | ⟨⟩, after⟩
  · rfl
  · exact tell_reacting earlier _ _ _ _ _

/-! ## What a listener cannot do -/

/-- A variable that a listener tries to write is refused as an invalid operation, and the store stays as it
is. -/
theorem attempt_set (s : Store) (name : String) (value : Value) :
    (∃ e, s.attempt (.set name value) = .error e ∧ e.kind = "invalid_operation") ∧
      s.afterAttempt (.set name value) = s :=
  ⟨⟨_, rfl, rfl⟩, rfl⟩

/-- A store that holds the same variables, changes and memory as another one, and keeps as many changes. -/
structure SameData (s t : Store) : Prop where
  values : t.values = s.values
  history : t.history = s.history
  memory : t.memory = s.memory
  capacity : t.capacity = s.capacity

namespace SameData

variable {s t u : Store}

theorem refl (s : Store) : SameData s s := ⟨rfl, rfl, rfl, rfl⟩

theorem trans (h : SameData s t) (g : SameData t u) : SameData s u :=
  ⟨g.values.trans h.values, g.history.trans h.history, g.memory.trans h.memory, g.capacity.trans h.capacity⟩

end SameData

/-- Whether a call leaves the data of a store alone when a listener makes it. -/
def Call.Harmless (c : Call) : Prop := c.clears = false ∧ c.amount = 0

theorem sameData_afterAttempt {c : Call} (h : c.Harmless) (s : Store) : SameData s (s.afterAttempt c) := by
  cases c with
  | set | subscribe | unsubscribe => exact ⟨rfl, rfl, rfl, rfl⟩
  | track amount =>
    obtain ⟨-, rfl⟩ : _ ∧ amount = 0 := h
    exact ⟨rfl, rfl, Int.add_zero _, rfl⟩
  | clear => exact absurd h.1 (by decide)

theorem sameData_afterAttempts {calls : List Call} (h : ∀ c ∈ calls, c.Harmless) (s : Store) :
    SameData s (s.afterAttempts calls) := by
  induction calls generalizing s with
  | nil => exact .refl s
  | cons c calls ih =>
    rw [List.forall_mem_cons] at h
    exact (sameData_afterAttempt h.1 s).trans (ih h.2 _)

/-- A store that has been cleared stays so under the calls of listeners: they cannot write. -/
theorem afterAttempts_cleared {calls : List Call} {s : Store}
    (h : (∃ c ∈ calls, c.clears = true) ∨ (s.values = [] ∧ s.history = [])) :
    (s.afterAttempts calls).values = [] ∧ (s.afterAttempts calls).history = [] := by
  induction calls generalizing s with
  | nil =>
    rcases h with ⟨c, hc, -⟩ | h
    · cases hc
    · exact h
  | cons c calls ih =>
    -- a variable that a listener would write is refused, so nothing comes back after the call that clears
    refine ih ?_
    cases c with
    | clear => exact .inr ⟨rfl, rfl⟩
    | set | track | subscribe | unsubscribe =>
      rcases h with ⟨c, hc, clears⟩ | h
      · rcases List.mem_cons.mp hc with rfl | hc
        · cases clears
        · exact .inl ⟨c, hc, clears⟩
      · exact .inr h

/-! ## Telling -/

/-- Some deliveries that were due, as they are made after earlier ones: in their order, each at most once, and
up to the first listener that raises an error. -/
structure Delivered (behave : Behaviour) (earlier due made : List Delivery) : Prop where
  order : made <+: due
  quiet : ∀ t ∈ (turns behave earlier made).dropLast, t.error = none
  complete : made = due ∨ ∃ t ∈ (turns behave earlier made).getLast?, t.error ≠ none

namespace Delivered

variable {behave : Behaviour} {earlier due made : List Delivery} {d : Delivery}

theorem nil (behave : Behaviour) (earlier : List Delivery) : Delivered behave earlier [] [] :=
  ⟨List.prefix_refl [], fun _ h => absurd h List.not_mem_nil, .inl rfl⟩

theorem cons (quiet : (behave (earlier ++ [d])).error = none)
    (h : Delivered behave (earlier ++ [d]) due made) : Delivered behave earlier (d :: due) (d :: made) := by
  refine ⟨List.cons_prefix_cons.mpr ⟨rfl, h.order⟩, fun t ht => ?_, ?_⟩
  · have later := h.quiet t
    rw [turns] at ht
    generalize turns behave (earlier ++ [d]) made = told at ht later
    cases told with
    | nil => cases ht
    | cons u us =>
      rcases List.mem_cons.mp ht with rfl | ht
      · exact quiet
      · exact later ht
  · rcases h.complete with rfl | ⟨t, last, raised⟩
    · exact .inl rfl
    · refine .inr ⟨t, ?_, raised⟩
      rw [turns, List.getLast?_cons, Option.mem_def.mp last]
      rfl

theorem raised (h : (behave (earlier ++ [d])).error ≠ none) (due : List Delivery) :
    Delivered behave earlier (d :: due) [d] :=
  ⟨List.cons_prefix_cons.mpr ⟨rfl, List.nil_prefix⟩, fun _ ht => absurd ht List.not_mem_nil,
    .inr ⟨_, rfl, h⟩⟩

end Delivered

/-- A round over some listeners tells them of the change, and makes the calls of those that are told. -/
theorem tell_delivered (behave : Behaviour) (guard : Guard) (change : Change) (s : Store)
    (heard : List Delivery) (listeners : List Listener) :
    ∃ made, Delivered behave heard (listeners.map (⟨·, change⟩)) made ∧
      (tell behave guard change s heard listeners).heard = heard ++ made ∧
      (tell behave guard change s heard listeners).store = s.afterAttempts (callsOver behave heard made) := by
  -- the induction is on the listeners still to be told, with the store that the earlier ones have left
  induction listeners generalizing s heard with
  | nil => exact ⟨[], .nil behave heard, (List.append_nil _).symm, rfl⟩
  | cons l later ih =>
    rw [tell]
    split
    · next quiet =>
      obtain ⟨made, delivered, told, store⟩ :=
        ih (s.afterAttempts (behave (heard ++ [⟨l, change⟩])).calls) (heard ++ [⟨l, change⟩])
      refine ⟨⟨l, change⟩ :: made, delivered.cons quiet, ?_, ?_⟩
      · rw [told, List.append_assoc, List.singleton_append]
      · rw [store, callsOver_cons, afterAttempts_append]
    · next e raised =>
      refine ⟨[⟨l, change⟩], .raised (by rw [raised]; exact Option.some_ne_none e) _, rfl, ?_⟩
      rw [callsOver_cons, afterAttempts_append]
      rfl

/-- A write that the guard accepts makes its change, tells the listeners of it, and makes the calls of those
that are told. -/
theorem setBy_delivered {guard : Guard} {name : String} {value : Value}
    (accepted : (guard.check (Check.state name value)).1 = .ok ()) (behave : Behaviour) (s : Store) :
    Delivered behave [] (s.listeners.map (⟨·, s.changeTo name value⟩))
        (s.setBy behave guard name value).heard ∧
      (s.setBy behave guard name value).store =
        (s.commit (s.changeTo name value)).afterAttempts
          (callsOver behave [] (s.setBy behave guard name value).heard) := by
  unfold setBy
  rcases hc : guard.check (Check.state name value) with ⟨violation | ⟨⟩, after⟩
  · rw [hc] at accepted
    cases accepted
  · obtain ⟨made, delivered, told, store⟩ :=
      tell_delivered behave after (s.changeTo name value) (s.commit (s.changeTo name value)) [] s.listeners
    rw [List.nil_append] at told
    rw [told]
    exact ⟨delivered, store⟩

/-- A write that the guard refuses tells nobody. -/
theorem setBy_refused {guard : Guard} {name : String} {value : Value}
    (refused : (guard.check (Check.state name value)).1 ≠ .ok ()) (behave : Behaviour) (s : Store) :
    (s.setBy behave guard name value).heard = [] ∧ (s.setBy behave guard name value).store = s := by
  unfold setBy
  rcases hc : guard.check (Check.state name value) with ⟨violation | ⟨⟩, after⟩
  · exact ⟨rfl, rfl⟩
  · rw [hc] at refused
    exact absurd rfl refused

/-- Listeners leave the guard as it is, so a write leaves its policy. -/
theorem setBy_policy (behave : Behaviour) (s : Store) (guard : Guard) (name : String) (value : Value) :
    (s.setBy behave guard name value).guard.policy = guard.policy := by
  have told (guard : Guard) (change : Change) (s : Store) (heard : List Delivery) (listeners : List Listener) :
      (tell behave guard change s heard listeners).guard = guard := by
    induction listeners generalizing s heard with
    | nil => rfl
    | cons l later ih =>
      rw [tell]
      split
      · exact ih _ _
      · rfl
  have kept := guard.check_policy (Check.state name value)
  unfold setBy
  rcases hc : guard.check (Check.state name value) with ⟨violation | ⟨⟩, after⟩ <;> rw [hc] at kept
  · exact kept
  · rwa [told]

theorem callsOver_reacting (earlier deliveries : List Delivery) :
    callsOver reacting earlier deliveries =
      deliveries.flatMap fun d => (turnOf d.change d.listener.reaction).calls := by
  induction deliveries generalizing earlier with
  | nil => rfl
  | cons d ds ih => rw [callsOver_cons, ih, reacting_concat, List.flatMap_cons]

/-! ## Exclusion -/

/-- The data of a store after a write of its own: the variable has the value, and the change is the newest of
those that are kept. -/
structure Written (s : Store) (name : String) (value : Value) (t : Store) : Prop where
  values : t.values = s.values.put name value
  history : t.history = (s.history ++ [s.changeTo name value]).rtake s.capacity
  memory : t.memory = s.memory + value.size

theorem written_commit (s : Store) (name : String) (value : Value) :
    Written s name value (s.commit (s.changeTo name value)) := by
  refine ⟨rfl, ?_, rfl⟩
  rw [List.rtake, List.length_append]
  rfl

theorem written_setBy {guard : Guard} {name : String} {value : Value}
    (accepted : (guard.check (Check.state name value)).1 = .ok ()) {behave : Behaviour} {s : Store}
    (harmless : ∀ c ∈ callsOver behave [] (s.setBy behave guard name value).heard, c.Harmless) :
    Written s name value (s.setBy behave guard name value).store := by
  have same := sameData_afterAttempts harmless (s.commit (s.changeTo name value))
  have written := written_commit s name value
  rw [(setBy_delivered accepted behave s).2]
  exact ⟨same.values.trans written.values, same.history.trans written.history,
    same.memory.trans written.memory⟩

/-- Listeners that react do no harm unless one of them clears the store. -/
theorem harmless_reacting {deliveries : List Delivery}
    (calm : ∀ d ∈ deliveries, d.listener.reaction ≠ .clear) (earlier : List Delivery) :
    ∀ c ∈ callsOver reacting earlier deliveries, c.Harmless := by
  rw [callsOver_reacting]
  intro c hc
  obtain ⟨d, hd, hc⟩ := List.mem_flatMap.mp hc
  cases hr : d.listener.reaction with
  | clear => exact absurd hr (calm d hd)
  | record | cancel =>
    rw [hr] at hc
    cases hc
  | write | unsubscribe =>
    rw [hr] at hc
    rw [List.mem_singleton.mp hc]
    exact ⟨rfl, rfl⟩

/-- The listeners that hear of a write are some of the store's. -/
theorem setBy_heard {guard : Guard} {name : String} {value : Value}
    (accepted : (guard.check (Check.state name value)).1 = .ok ()) (behave : Behaviour) (s : Store) :
    ∀ d ∈ (s.setBy behave guard name value).heard, d.listener ∈ s.listeners := by
  intro d hd
  obtain ⟨l, hl, rfl⟩ := List.mem_map.mp ((setBy_delivered accepted behave s).1.order.subset hd)
  exact hl

/-- A write does not lower the estimate of the memory used if no listener clears the store. -/
theorem memory_le_set {s : Store} (calm : ∀ l ∈ s.listeners, l.reaction ≠ .clear) (guard : Guard)
    (name : String) (value : Value) : s.memory ≤ (s.set guard name value).store.memory := by
  have same : s.setBy reacting guard name value = s.set guard name value := setBy_reacting [] s guard name value
  rw [← same]
  by_cases accepted : (guard.check (Check.state name value)).1 = .ok ()
  · have written : Written s name value (s.setBy reacting guard name value).store :=
      written_setBy accepted (harmless_reacting (fun d hd => calm _ (setBy_heard accepted _ s d hd)) [])
    rw [written.memory]
    exact Int.le_add_of_nonneg_right (Int.natCast_nonneg _)
  · exact Int.le_of_eq (congrArg Store.memory (setBy_refused accepted _ s).2.symm)

/-- No listener writes to the store that it observes: its attempts are refused as invalid operations. Once an
accepted write has ended, with an error or without one, the store holds the change and nothing else if no
listener that heard of it has cleared the store or added to its memory; if one has cleared the store, variables
and changes are gone. The reactions of listeners are such a behaviour. -/
theorem written_unless_cleared {guard : Guard} {name : String} {value : Value}
    (accepted : (guard.check (Check.state name value)).1 = .ok ()) (s : Store) :
    (∀ behave : Behaviour,
      let w := s.setBy behave guard name value
      ((∀ c ∈ callsOver behave [] w.heard, c.Harmless) → Written s name value w.store) ∧
        ((∃ c ∈ callsOver behave [] w.heard, c.clears = true) → w.store.values = [] ∧ w.store.history = [])) ∧
      (∀ (t : Store) (other : String) (v : Value),
        (∃ e, t.attempt (.set other v) = .error e ∧ e.kind = "invalid_operation") ∧
          t.afterAttempt (.set other v) = t) ∧
      s.setBy reacting guard name value = s.set guard name value := by
  refine ⟨fun behave => ⟨fun harmless => written_setBy accepted harmless, fun cleared => ?_⟩, attempt_set,
    setBy_reacting [] s guard name value⟩
  rw [(setBy_delivered accepted behave s).2]
  exact afterAttempts_cleared (.inl cleared)

/-- A store with a listener that writes to another variable. -/
def echoed : Store := (empty 2).subscribe (.write "echo")

/-- The write ends with the listener's error, and holds nonetheless. -/
theorem written_echoed :
    ((Guard.ofLevel .strict).check (Check.state "a" (.int 1))).1 = .ok () ∧
      (∃ e, (echoed.set (.ofLevel .strict) "a" (.int 1)).result = .error e) ∧
      Written echoed "a" (.int 1) (echoed.set (.ofLevel .strict) "a" (.int 1)).store := by
  have accepted : ((Guard.ofLevel .strict).check (Check.state "a" (.int 1))).1 = .ok () := by decide +kernel
  have raised : (echoed.set (.ofLevel .strict) "a" (.int 1)).result.isOk = false := by decide +kernel
  have refused : ∃ e, (echoed.set (.ofLevel .strict) "a" (.int 1)).result = .error e := by
    cases hr : (echoed.set (.ofLevel .strict) "a" (.int 1)).result with
    | ok change =>
      rw [hr] at raised
      cases raised
    | error e => exact ⟨e, rfl⟩
  obtain ⟨written, -, same⟩ := written_unless_cleared accepted echoed
  have harmless : ∀ c ∈ callsOver reacting []
      (echoed.setBy reacting (.ofLevel .strict) "a" (.int 1)).heard, c.Harmless :=
    harmless_reacting (fun d hd => by
      rw [List.mem_singleton.mp (setBy_heard accepted reacting echoed d hd)]
      decide) []
  have holds := (written reacting).1 harmless
  rw [same] at holds
  exact ⟨accepted, refused, holds⟩

/-- A store with a listener that clears it. -/
def swept : Store := (empty 2).subscribe .clear

/-- A listener that clears the store is not refused: the variable just written is gone, with the change. -/
theorem not_written_swept :
    ((Guard.ofLevel .strict).check (Check.state "a" (.int 1))).1 = .ok () ∧
      (swept.set (.ofLevel .strict) "a" (.int 1)).store.values.length = 0 ∧
      ¬ Written swept "a" (.int 1) (swept.set (.ofLevel .strict) "a" (.int 1)).store := by
  have gone : (swept.set (.ofLevel .strict) "a" (.int 1)).store.values.length = 0 := by decide +kernel
  refine ⟨by decide +kernel, gone, fun written => ?_⟩
  rw [written.values] at gone
  cases gone

end Store

end Screenplay
