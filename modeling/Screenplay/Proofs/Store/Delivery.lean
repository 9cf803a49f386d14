/-
Who hears of a write. Over any calls on a store, those that listeners make included, the listeners of the
store are the subscriptions that have been made and not ended, in the order in which they were made. A write
that the guard accepts is told to the listeners that are there when it begins, to each of them once and in
their order, up to the first that raises an error, whatever the listeners do to the store in between. A write
that the guard refuses is told to nobody.
-/
import Mathlib.Data.List.Nodup
import Screenplay.Proofs.Store.Turns

namespace Screenplay

namespace Store

/-! ## Subscriptions -/

namespace Call

/-- Whether a call makes a subscription. -/
def subscribes : Call → Bool
  | .subscribe _ => true
  | _ => false

/-- Whether a call ends the subscription of a key. -/
def ends (key : Nat) : Call → Bool
  | .unsubscribe ended => ended == key
  | _ => false

/-- The number of the subscriptions that some calls make. -/
def subscriptions (calls : List Call) : Nat := calls.countP subscribes

/-- The subscriptions that some calls make and do not end later, their keys counted from a first one. -/
def registered (first : Nat) : List Call → List Listener
  | [] => []
  | .subscribe reaction :: later =>
    if later.any (·.ends first) then registered (first + 1) later
    else ⟨some first, reaction⟩ :: registered (first + 1) later
  | _ :: later => registered first later

/-- The listeners of a store after one more call. -/
def enlist (key : Nat) (listeners : List Listener) : Call → List Listener
  | .subscribe reaction => listeners ++ [⟨some key, reaction⟩]
  | .unsubscribe ended => listeners.filter (·.key ≠ some ended)
  | .set .. | .track _ | .clear => listeners

theorem subscriptions_concat (calls : List Call) (c : Call) :
    subscriptions (calls ++ [c]) = subscriptions calls + (if c.subscribes then 1 else 0) := by
  simp [subscriptions, List.countP_cons]

theorem registered_concat (first : Nat) (calls : List Call) (c : Call) :
    registered first (calls ++ [c]) = enlist (first + subscriptions calls) (registered first calls) c := by
  -- by induction on the calls from the first one: what is registered is told by the calls that follow
  induction calls generalizing first with
  | nil => cases c <;> rfl
  | cons head later ih =>
    cases head with
    | subscribe reaction =>
      have counted : first + subscriptions (.subscribe reaction :: later) =
          first + 1 + subscriptions later := by
        rw [subscriptions, List.countP_cons_of_pos rfl, ← subscriptions, Nat.add_right_comm, Nat.add_assoc]
      rw [List.cons_append, registered, registered, ih, counted, List.any_append]
      cases c with
      | unsubscribe ended =>
        cases later.any (·.ends first) with
        | true => rfl
        | false =>
          by_cases he : ended = first
          · simp [he, enlist, ends]
          · simp [he, enlist, ends, Ne.symm he]
      | subscribe other => cases later.any (·.ends first) <;> rfl
      | set | track | clear => cases later.any (·.ends first) <;> rfl
    | set | track | clear | unsubscribe => exact ih first

/-- The keys of the subscriptions grow. -/
theorem registered_keys (first : Nat) (calls : List Call) :
    ∃ keys : List Nat, (registered first calls).map (·.key) = keys.map some ∧ keys.Pairwise (· < ·) ∧
      ∀ key ∈ keys, first ≤ key := by
  induction calls generalizing first with
  | nil => exact ⟨[], rfl, .nil, fun _ h => absurd h List.not_mem_nil⟩
  | cons c later ih =>
    cases c with
    | subscribe reaction =>
      obtain ⟨keys, eq, sorted, bound⟩ := ih (first + 1)
      have above (key : Nat) (h : key ∈ keys) : first ≤ key := Nat.le_of_succ_le (bound key h)
      rw [registered]
      split
      · exact ⟨keys, eq, sorted, above⟩
      · refine ⟨first :: keys, ?_, List.pairwise_cons.mpr ⟨bound, sorted⟩, ?_⟩
        · rw [List.map_cons, eq, List.map_cons]
        · exact List.forall_mem_cons.mpr ⟨Nat.le_refl first, above⟩
    | set | track | clear | unsubscribe => exact ih first

/-- No listener is registered twice. -/
theorem registered_nodup (first : Nat) (calls : List Call) : (registered first calls).Nodup := by
  obtain ⟨keys, eq, sorted, -⟩ := registered_keys first calls
  refine List.Nodup.of_map (·.key) ?_
  rw [eq]
  exact List.Nodup.map (fun _ _ => Option.some.inj) (sorted.imp Nat.ne_of_lt)

/-- A subscription that has been ended is not registered. -/
theorem not_registered {key first : Nat} {before : List Call} (known : key < first + subscriptions before)
    (after : List Call) :
    ∀ l ∈ registered first (before ++ .unsubscribe key :: after), l.key ≠ some key := by
  induction after using List.reverseRecOn with
  | nil =>
    intro l hl
    rw [registered_concat] at hl
    simpa using List.of_mem_filter hl
  | append_singleton after c ih =>
    have later : key < first + subscriptions (before ++ .unsubscribe key :: after) := by
      simp only [subscriptions, List.countP_append] at known ⊢
      omega
    intro l hl
    rw [← List.cons_append, ← List.append_assoc, registered_concat] at hl
    cases c with
    | subscribe reaction =>
      rcases List.mem_append.mp hl with hl | hl
      · exact ih l hl
      · -- a new subscription has a new key
        rw [List.mem_singleton.mp hl]
        exact fun h => Nat.ne_of_gt later (Option.some.inj h)
    | unsubscribe ended => exact ih l (List.mem_of_mem_filter hl)
    | set | track | clear => exact ih l hl

end Call

/-- A store whose listeners are the subscriptions that some calls have left. -/
structure Rostered (calls : List Call) (s : Store) : Prop where
  listeners : s.listeners = Call.registered 0 calls
  nextKey : s.nextKey = Call.subscriptions calls

namespace Rostered

variable {calls : List Call} {s : Store}

theorem concat {c : Call} {t : Store} (h : Rostered calls s)
    (listeners : t.listeners = c.enlist s.nextKey s.listeners)
    (nextKey : t.nextKey = s.nextKey + (if c.subscribes then 1 else 0)) : Rostered (calls ++ [c]) t := by
  refine ⟨?_, ?_⟩
  · rw [listeners, Call.registered_concat, h.listeners, h.nextKey, Nat.zero_add]
  · rw [nextKey, Call.subscriptions_concat, h.nextKey]

/-- A call of a listener. -/
theorem afterAttempt (h : Rostered calls s) (c : Call) : Rostered (calls ++ [c]) (s.afterAttempt c) := by
  cases c <;> exact h.concat rfl rfl

theorem afterAttempts (h : Rostered calls s) (made : List Call) :
    Rostered (calls ++ made) (s.afterAttempts made) := by
  induction made generalizing calls s with
  | nil => rwa [List.append_nil]
  | cons c made ih =>
    rw [List.append_cons]
    exact ih (h.afterAttempt c)

/-- The change of a write. -/
theorem commit (h : Rostered calls s) (name : String) (value : Value) :
    Rostered (calls ++ [.set name value]) (s.commit (s.changeTo name value)) :=
  h.concat rfl rfl

end Rostered

/-! ## Sessions -/

/-- A store with its guard, what its listeners have heard, and all calls on it, those that listeners have made
included. -/
structure Session where
  store : Store
  guard : Guard
  heard : List Delivery
  calls : List Call

namespace Session

/-- A write in a session. -/
def write (behave : Behaviour) (x : Session) (name : String) (value : Value) : Write :=
  x.store.setBy (behave.after x.heard) x.guard name value

/-- The calls that the listeners make over a write. -/
def echo (behave : Behaviour) (x : Session) (name : String) (value : Value) : List Call :=
  callsOver (behave.after x.heard) [] (x.write behave name value).heard

/-- A session after one more call. -/
def call (behave : Behaviour) (x : Session) : Call → Session
  | .set name value =>
    let w := x.write behave name value
    ⟨w.store, w.guard, x.heard ++ w.heard, x.calls ++ .set name value :: x.echo behave name value⟩
  | c => ⟨x.store.afterAttempt c, x.guard, x.heard, x.calls ++ [c]⟩

/-- A session on a new store. -/
def start (capacity : Nat) (guard : Guard) : Session := ⟨empty capacity, guard, [], []⟩

/-- A session after some calls, one after the other. -/
def callAll (behave : Behaviour) (x : Session) (calls : List Call) : Session := calls.foldl (call behave) x

/-- With listeners that react, a session is what the calls make of the store. -/
theorem callAll_reacting (x : Session) (calls : List Call) :
    ((x.callAll reacting calls).store, (x.callAll reacting calls).guard) =
      Store.callAll x.store x.guard calls := by
  induction calls generalizing x with
  | nil => rfl
  | cons c calls ih =>
    refine (ih (x.call reacting c)).trans ?_
    cases c with
    | set name value =>
      rw [Store.callAll, Store.callAll, List.foldl_cons, Store.call, call, write, setBy_reacting]
    | track | clear | subscribe | unsubscribe => rfl

end Session

/-! ## Deliveries -/

namespace Session

/-- How a session tells of a write: what the guard refuses is told to nobody; what it accepts is told to the
listeners of the store, and to none of them twice. At any time the listeners are the subscriptions that have
been made and not ended. -/
structure Tells (behave : Behaviour) (x : Session) (name : String) (value : Value) : Prop where
  accepted : (x.guard.check (Check.state name value)).1 = .ok () →
    Delivered (behave.after x.heard) [] ((Call.registered 0 x.calls).map (⟨·, x.store.changeTo name value⟩))
      (x.write behave name value).heard
  refused : (x.guard.check (Check.state name value)).1 ≠ .ok () →
    (x.write behave name value).heard = [] ∧ (x.write behave name value).store = x.store
  once : ((x.write behave name value).heard.map (·.listener)).Nodup
  ended : ∀ before key after, x.calls = before ++ .unsubscribe key :: after →
    key < Call.subscriptions before →
    ∀ d ∈ (x.write behave name value).heard, d.listener.key ≠ some key
  during : ∀ made, made <+: x.echo behave name value →
    ((x.store.commit (x.store.changeTo name value)).afterAttempts made).listeners =
      Call.registered 0 (x.calls ++ .set name value :: made)

variable {behave : Behaviour} {x : Session}

/-- The listeners that hear of a write are some that are registered, in their order. -/
theorem heard_listeners (h : Rostered x.calls x.store) (name : String) (value : Value) :
    (x.write behave name value).heard.map (·.listener) <+: Call.registered 0 x.calls := by
  by_cases accepted : (x.guard.check (Check.state name value)).1 = .ok ()
  · have told := ((setBy_delivered accepted (behave.after x.heard) x.store).1.order).map (·.listener)
    rw [List.map_map, h.listeners] at told
    exact (List.map_id (Call.registered 0 x.calls)).subst (motive := fun due => _ <+: due) told
  · rw [write, (setBy_refused accepted _ _).1]
    exact List.nil_prefix

theorem tells (h : Rostered x.calls x.store) (name : String) (value : Value) :
    x.Tells behave name value where
  accepted accepted := by
    rw [← h.listeners]
    exact (setBy_delivered accepted _ _).1
  refused refused := setBy_refused refused _ _
  once := (heard_listeners h name value).sublist.nodup (Call.registered_nodup 0 x.calls)
  ended before key after calls known d hd := by
    have registered := (heard_listeners h name value).subset (List.mem_map_of_mem hd)
    rw [calls] at registered
    exact Call.not_registered (by rwa [Nat.zero_add]) after _ registered
  during made _ := by
    rw [List.append_cons]
    exact ((h.commit name value).afterAttempts made).listeners

/-- One more call keeps account of the subscriptions. -/
theorem rostered_call (h : Rostered x.calls x.store) (c : Call) :
    Rostered (x.call behave c).calls (x.call behave c).store := by
  cases c with
  | set name value =>
    by_cases accepted : (x.guard.check (Check.state name value)).1 = .ok ()
    · have store := (setBy_delivered accepted (behave.after x.heard) x.store).2
      show Rostered (x.calls ++ .set name value :: x.echo behave name value) (x.store.setBy _ _ _ _).store
      rw [store, List.append_cons]
      exact (h.commit name value).afterAttempts _
    · obtain ⟨heard, store⟩ := setBy_refused accepted (behave.after x.heard) x.store
      show Rostered (x.calls ++ .set name value :: callsOver _ [] (x.store.setBy _ _ _ _).heard)
        (x.store.setBy _ _ _ _).store
      rw [heard, store]
      exact h.concat rfl rfl
  | track | clear | subscribe | unsubscribe => exact h.afterAttempt _

theorem rostered_callAll (behave : Behaviour) (h : Rostered x.calls x.store) (calls : List Call) :
    Rostered (x.callAll behave calls).calls (x.callAll behave calls).store := by
  induction calls generalizing x with
  | nil => exact h
  | cons c calls ih => exact ih (rostered_call h c)

/-- Over any calls on a store, whatever its listeners do, the listeners are the subscriptions that have been
made and not ended, and a write is told to them: to each once and in their order, up to the first that raises
an error. The reactions of listeners are such a behaviour. -/
theorem tells_registered (capacity : Nat) (guard : Guard) (behave : Behaviour) (calls : List Call) :
    let x := (start capacity guard).callAll behave calls
    x.store.listeners = Call.registered 0 x.calls ∧
      (∀ name value, x.Tells behave name value) ∧
      (let y := (start capacity guard).callAll reacting calls
       (y.store, y.guard) = Store.callAll (empty capacity) guard calls ∧
         ∀ name value, y.write reacting name value = y.store.set y.guard name value) := by
  have h : Rostered ((start capacity guard).callAll behave calls).calls
      ((start capacity guard).callAll behave calls).store :=
    rostered_callAll behave ⟨rfl, rfl⟩ calls
  exact ⟨h.listeners, tells h, callAll_reacting _ calls, fun name value => setBy_reacting _ _ _ name value⟩

end Session

end Store

end Screenplay
