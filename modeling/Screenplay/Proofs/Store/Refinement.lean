/-
The store as a log, whatever its listeners do short of harming it. Over any calls on a store, as long as no
listener clears it or adds to its memory, the store is told by the writes that have passed its guard since it
was last cleared. A write counts even if a listener has raised an error over it, and one that the guard refuses
leaves the store as it was.
-/
import Screenplay.Proofs.Store.Delivery

namespace Screenplay

namespace Store

variable {capacity : Nat} {guard : Guard} {behave : Behaviour} {calls : List Call}

/-- What leaves the data of a store alone leaves its log. -/
theorem Logged.of_sameData {writes : List (String × Value)} {tracked : Int} {s t : Store}
    (h : Logged capacity writes tracked s) (same : SameData s t) : Logged capacity writes tracked t := by
  refine ⟨?_, fun name => ?_, ?_, ?_, ?_⟩
  · rw [same.values, h.names]
  · rw [← h.latest name, get?, get?, same.values]
  · rw [same.history, h.history]
  · rw [same.memory, h.memory]
  · rw [same.capacity, h.capacity]

/-- A write that passes is put into the log, whatever error a listener raises over it. -/
theorem Logged.setBy {writes : List (String × Value)} {tracked : Int} {s : Store}
    (h : Logged capacity writes tracked s) (guard : Guard) (name : String) (value : Value)
    (harmless : ∀ c ∈ callsOver behave [] (s.setBy behave guard name value).heard, c.Harmless) :
    Logged capacity (writes ++ ((Call.set name value).write? guard).toList) tracked
      (s.setBy behave guard name value).store := by
  by_cases accepted : (guard.check (Check.state name value)).1 = .ok ()
  · rw [(setBy_delivered accepted behave s).2, Call.write?, if_pos accepted]
    exact (h.commit name value).of_sameData (sameData_afterAttempts harmless _)
  · rw [(setBy_refused accepted behave s).2, Call.write?, if_neg accepted, Option.toList_none, List.append_nil]
    exact h

/-! ## Sessions -/

namespace Session

/-- No listener that a session has told of a change has harmed the store. -/
def Unharmed (behave : Behaviour) (x : Session) : Prop :=
  ∀ heard, heard <+: x.heard → ∀ c ∈ (behave heard).calls, c.Harmless

/-- A session as some calls leave it: the log of the calls, and the policy of the first guard. -/
structure Reached (capacity : Nat) (guard : Guard) (calls : List Call) (x : Session) : Prop where
  log : Logged capacity (Call.writes guard calls) (Call.tracked calls) x.store
  policy : x.guard.policy = guard.policy

variable {x : Session}

/-- One more call makes listeners hear more. -/
theorem heard_prefix_call (behave : Behaviour) (x : Session) (c : Call) : x.heard <+: (x.call behave c).heard := by
  cases c with
  | set => exact List.prefix_append _ _
  | track | clear | subscribe | unsubscribe => exact List.prefix_refl _

theorem Unharmed.of_call {c : Call} (h : (x.call behave c).Unharmed behave) : x.Unharmed behave :=
  fun heard earlier => h heard (earlier.trans (heard_prefix_call behave x c))

/-- What listeners do over a write is harmless if the session is unharmed after it. -/
theorem Unharmed.echo {name : String} {value : Value} (h : (x.call behave (.set name value)).Unharmed behave) :
    ∀ c ∈ x.echo behave name value, c.Harmless := by
  intro c hc
  obtain ⟨told, among, made⟩ := exists_turn_of_mem_callsOver hc
  exact h (x.heard ++ told) ((List.prefix_append_right_inj _).mpr among) c made

/-- One more call. -/
theorem Reached.call (h : Reached capacity guard calls x) {c : Call} (unharmed : (x.call behave c).Unharmed behave) :
    Reached capacity guard (calls ++ [c]) (x.call behave c) := by
  have next {s : Store} (hc : c.clears = false)
      (hl : Logged capacity (Call.writes guard calls ++ (c.write? x.guard).toList) (Call.tracked calls + c.amount) s) :
      Logged capacity (Call.writes guard (calls ++ [c])) (Call.tracked (calls ++ [c])) s := by
    -- the log is told by the first guard, the call was judged by the present one
    rwa [Call.writes_concat hc, Call.tracked_concat hc, ← Call.write?_congr h.policy]
  have log := h.log
  cases c with
  | set name value =>
    refine ⟨next rfl ?_, (setBy_policy _ _ _ _ _).trans h.policy⟩
    rw [Call.amount, Int.add_zero]
    exact log.setBy x.guard name value unharmed.echo
  | track amount =>
    refine ⟨next rfl ?_, h.policy⟩
    rw [Call.write?, Option.toList_none, List.append_nil]
    exact log.track amount
  | clear =>
    refine ⟨?_, h.policy⟩
    rw [Call.writes, Call.tracked, Call.sinceClear_clear]
    exact log.clear
  | subscribe reaction =>
    refine ⟨next rfl ?_, h.policy⟩
    rw [Call.write?, Option.toList_none, List.append_nil, Call.amount, Int.add_zero]
    exact log.subscribe reaction
  | unsubscribe key =>
    refine ⟨next rfl ?_, h.policy⟩
    rw [Call.write?, Option.toList_none, List.append_nil, Call.amount, Int.add_zero]
    exact log.unsubscribe key

theorem callAll_concat (behave : Behaviour) (x : Session) (calls : List Call) (c : Call) :
    x.callAll behave (calls ++ [c]) = (x.callAll behave calls).call behave c :=
  List.foldl_concat ..

/-- Any calls on a new store, by induction on the calls from the last one. -/
theorem Reached.callAll (unharmed : ((start capacity guard).callAll behave calls).Unharmed behave) :
    Reached capacity guard calls ((start capacity guard).callAll behave calls) := by
  induction calls using List.reverseRecOn with
  | nil => exact ⟨Logged.empty capacity, rfl⟩
  | append_singleton calls c ih =>
    rw [callAll_concat] at unharmed ⊢
    exact (ih unharmed.of_call).call unharmed

/-! ## Listeners that react -/

/-- No listener of a session clears the store, nor has one that was told of a change. -/
structure Calm (x : Session) : Prop where
  listeners : ∀ l ∈ x.store.listeners, l.reaction ≠ .clear
  heard : ∀ d ∈ x.heard, d.listener.reaction ≠ .clear

theorem Calm.call (h : x.Calm) {c : Call} (quiet : c ≠ .subscribe .clear) : (x.call reacting c).Calm := by
  cases c with
  | set name value =>
    have same : x.write reacting name value = x.store.set x.guard name value := setBy_reacting _ _ _ _ _
    refine ⟨fun l hl => h.listeners l ?_, List.forall_mem_append.mpr ⟨h.heard, fun d hd => h.listeners _ ?_⟩⟩
    · change l ∈ (x.write reacting name value).store.listeners at hl
      rw [same] at hl
      exact set_listeners _ _ _ _ hl
    · by_cases accepted : (x.guard.check (Check.state name value)).1 = .ok ()
      · exact setBy_heard accepted _ _ d hd
      · rw [write, (setBy_refused accepted _ _).1] at hd
        cases hd
  | track | clear => exact ⟨h.listeners, h.heard⟩
  | subscribe reaction =>
    refine ⟨List.forall_mem_append.mpr ⟨h.listeners, List.forall_mem_singleton.mpr ?_⟩, h.heard⟩
    exact fun clears => quiet (congrArg Call.subscribe clears)
  | unsubscribe key => exact ⟨fun l hl => h.listeners l (List.mem_of_mem_filter hl), h.heard⟩

/-- Where no listener that clears the store is subscribed, none harms it. -/
theorem unharmed_reacting (capacity : Nat) (guard : Guard) (quiet : Call.subscribe .clear ∉ calls) :
    ((start capacity guard).callAll reacting calls).Unharmed reacting := by
  have calm : ((start capacity guard).callAll reacting calls).Calm := by
    induction calls using List.reverseRecOn with
    | nil => exact ⟨List.forall_mem_nil _, List.forall_mem_nil _⟩
    | append_singleton calls c ih =>
      rw [List.mem_append, not_or, List.mem_singleton] at quiet
      rw [callAll_concat]
      exact (ih quiet.1).call (Ne.symm quiet.2)
  intro heard earlier
  -- the turn after some deliveries is that of the last one
  rcases List.eq_nil_or_concat' heard with rfl | ⟨before, d, rfl⟩
  · exact List.forall_mem_nil _
  · have told : ∀ e ∈ [d], e.listener.reaction ≠ .clear :=
      List.forall_mem_singleton.mpr (calm.heard d (earlier.subset (by simp)))
    have harmless := harmless_reacting told before
    rw [callsOver_cons] at harmless
    exact (List.forall_mem_append.mp harmless).1

end Session

open Screenplay.Store.Session in
/-- A store refines the log of its writes, whatever is called on it, if no listener harms it by what it does when it
hears of a change. A write that the guard refuses leaves it as it was. Listeners that react harm it only if one of
them clears it. -/
theorem refines_log (capacity : Nat) (guard : Guard) (calls : List Call) :
    (∀ behave : Behaviour,
      let x := (start capacity guard).callAll behave calls
      x.Unharmed behave → Logged capacity (Call.writes guard calls) (Call.tracked calls) x.store ∧
        ∀ name value, (Call.set name value).write? guard = none →
          (x.call behave (.set name value)).store = x.store) ∧
      (Call.subscribe .clear ∉ calls →
        Logged capacity (Call.writes guard calls) (Call.tracked calls) (Store.callAll (empty capacity) guard calls).1 ∧
          ∀ name value, (Call.set name value).write? guard = none →
            (Store.callAll (empty capacity) guard (calls ++ [.set name value])).1 =
              (Store.callAll (empty capacity) guard calls).1) := by
  have refines (behave : Behaviour) (unharmed : ((start capacity guard).callAll behave calls).Unharmed behave) :
      let x := (start capacity guard).callAll behave calls
      Logged capacity (Call.writes guard calls) (Call.tracked calls) x.store ∧
        ∀ name value, (Call.set name value).write? guard = none →
          (x.call behave (.set name value)).store = x.store := by
    have reached := Reached.callAll unharmed
    refine ⟨reached.log, fun name value refused => ?_⟩
    rw [← Call.write?_congr reached.policy, Call.write?, ite_eq_right_iff] at refused
    exact (setBy_refused (fun accepted => Option.some_ne_none _ (refused accepted)) _ _).2
  refine ⟨refines, fun quiet => ?_⟩
  obtain ⟨log, refused⟩ := refines reacting (unharmed_reacting capacity guard quiet)
  -- with listeners that react, the session is what the calls make of the store
  have same (calls : List Call) : (Store.callAll (empty capacity) guard calls).1 =
      ((start capacity guard).callAll reacting calls).store :=
    (congrArg Prod.fst (callAll_reacting (start capacity guard) calls)).symm
  rw [same]
  refine ⟨log, fun name value denied => ?_⟩
  rw [same, callAll_concat]
  exact refused name value denied

/-- Calls that write twice to one variable after a clearing, and whose last text is refused at the strict level. -/
def visits : List Call := [
  .set "old" (.int 1), .clear, .track 3, .subscribe .record, .set "count" (.int 1),
  .subscribe (.write "count"), .set "title" (.text "eval"), .set "count" (.int 2), .unsubscribe 1,
  .set "note" (.text "hi")]

/-- Listeners of which each ends its subscription when it hears of its second change, and raises an error. -/
def leaving : Behaviour := fun heard =>
  match heard.getLast? with
  | some ⟨⟨some key, _⟩, _⟩ =>
    if heard.countP (·.listener.key == some key) = 2 then ⟨[.unsubscribe key], some .cancelled⟩ else ⟨[], none⟩
  | _ => ⟨[], none⟩

open Screenplay.Store.Session in
/-- The visits leave the log of three writes, with such listeners and with those that react, and one more write that is
refused changes nothing. -/
theorem refines_log_visits :
    let kept := [("count", Value.int 1), ("count", .int 2), ("note", .text "hi")]
    let x := (start 2 (.ofLevel .strict)).callAll leaving visits
    Logged 2 kept 3 x.store ∧ (x.call leaving (.set "title" (.text "eval"))).store = x.store ∧
      Logged 2 kept 3 (Store.callAll (empty 2) (.ofLevel .strict) visits).1 := by
  have one : ((Guard.ofLevel .strict).check (Check.state "count" (.int 1))).1 = .ok () := by decide +kernel
  have two : ((Guard.ofLevel .strict).check (Check.state "count" (.int 2))).1 = .ok () := by decide +kernel
  have hi : ((Guard.ofLevel .strict).check (Check.state "note" (.text "hi"))).1 = .ok () := by
    decide +kernel
  have eval : ((Guard.ofLevel .strict).check (Check.state "title" (.text "eval"))).1 ≠ .ok () := by
    decide +kernel
  have writes : Call.writes (.ofLevel .strict) visits =
      [("count", .int 1), ("count", .int 2), ("note", .text "hi")] := by
    simp [Call.writes, Call.sinceClear, visits, List.rtakeWhile, Call.clears, List.filterMap_cons,
      Call.write?, one, two, hi, eval]
  have tracked : Call.tracked visits = 3 := by
    simp [Call.tracked, Call.sinceClear, visits, List.rtakeWhile, Call.clears, Call.amount]
  -- ending a subscription is all that such a listener does
  have unharmed (x : Session) : x.Unharmed leaving := by
    intro heard _ c hc
    unfold leaving at hc
    split at hc
    · split at hc
      · rw [List.mem_singleton.mp hc]
        exact ⟨rfl, rfl⟩
      · cases hc
    · cases hc
  obtain ⟨behaving, reactions⟩ := refines_log 2 (.ofLevel .strict) visits
  rw [writes, tracked] at behaving reactions
  obtain ⟨log, refused⟩ := behaving leaving (unharmed _)
  exact ⟨log, refused _ _ (by simp [Call.write?, eval]), (reactions (by simp [visits])).1⟩

end Store

end Screenplay
