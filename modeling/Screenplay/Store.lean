/-
The store of state variables: their values, the latest changes, an estimate of the memory used, and
the listeners that hear of every change. A write is checked by a guard first. Listeners hear a change
after it has been made, in the order of their subscription; one that tries to write ends the round.
-/
import Screenplay.Guard
import Screenplay.RunError

namespace Screenplay

/-! ## Changes and listeners -/

/-- A change of a variable; the value before it is null if there was none. -/
structure Change where
  name : String
  old : Value
  new : Value
deriving Inhabited

/-- What a listener does when it hears of a change. -/
inductive Reaction where
  /-- nothing more -/
  | record
  /-- an attempt to write the new value to a variable -/
  | write (name : String)
  /-- ends a subscription -/
  | unsubscribe (key : Nat)
  /-- clears the store -/
  | clear
  /-- asks for the end of the run -/
  | cancel
deriving Repr, DecidableEq

/-- A listener. One that is held for a single write only has no key. -/
structure Listener where
  key : Option Nat
  reaction : Reaction
deriving Repr, DecidableEq

/-- A change as a listener heard it. -/
structure Delivery where
  listener : Listener
  change : Change

/-! ## The store -/

/-- A store. -/
structure Store where
  values : Entries Value
  /-- the latest changes, the newest last -/
  history : List Change
  /-- the most changes that are kept -/
  capacity : Nat
  /-- the estimated memory used -/
  memory : Int
  /-- in the order of their subscription -/
  listeners : List Listener
  /-- the key of the next subscription -/
  nextKey : Nat

/-- The outcome of a write: the change or an error, and what was heard on the way. -/
structure Write where
  result : Except RunError Change
  store : Store
  guard : Guard
  heard : List Delivery

namespace Store

/-- A store without variables that keeps some changes. -/
def empty (capacity : Nat) : Store := ⟨[], [], capacity, 0, [], 0⟩

/-- The value of a variable. -/
def get? (s : Store) (name : String) : Option Value := s.values.get? name

/-- Whether a variable has a value. -/
def has (s : Store) (name : String) : Bool := s.values.has name

/-- Adds to the estimate of the memory used. -/
def track (s : Store) (amount : Int) : Store := { s with memory := s.memory + amount }

/-- Drops all values and changes; the listeners stay. -/
def clear (s : Store) : Store := { s with values := [], history := [], memory := 0 }

/-! ## Subscriptions -/

/-- Adds a listener. -/
def subscribe (s : Store) (reaction : Reaction) : Store :=
  { s with listeners := s.listeners ++ [⟨some s.nextKey, reaction⟩], nextKey := s.nextKey + 1 }

/-- Ends a subscription, if it has not ended before. -/
def unsubscribe (s : Store) (key : Nat) : Store :=
  { s with listeners := s.listeners.filter (·.key ≠ some key) }

/-- Adds a listener for a single write. -/
def hold (s : Store) (reaction : Reaction) : Store :=
  { s with listeners := s.listeners ++ [⟨none, reaction⟩] }

/-- Drops the listeners that were held for a single write. -/
def release (s : Store) : Store :=
  { s with listeners := s.listeners.filter (·.key.isSome) }

/-! ## Writing -/

/-- Some changes with a new one, the oldest dropped if there are too many. -/
def remember (capacity : Nat) (history : List Change) (change : Change) : List Change :=
  (history ++ [change]).drop (history.length + 1 - capacity)

/-- The change that a write would make. -/
def changeTo (s : Store) (name : String) (value : Value) : Change :=
  ⟨name, (s.get? name).getD .null, value⟩

/-- Makes a change. -/
def commit (s : Store) (change : Change) : Store :=
  { s with
    values := s.values.put change.name change.new
    history := remember s.capacity s.history change
    memory := s.memory + change.new.size }

/-- What a listener does to the store, or why it may not. -/
def react (s : Store) : Reaction → Except RunError Store
  | .record | .cancel => .ok s
  | .write name => .error (.listenerWrite name)
  | .unsubscribe key => .ok (s.unsubscribe key)
  | .clear => .ok s.clear

/-- Tells some listeners of a change, one after the other, up to the first that is refused. -/
def notify (guard : Guard) (change : Change) (s : Store) (heard : List Delivery) :
    List Listener → Write
  | [] => ⟨.ok change, s, guard, heard⟩
  | l :: later =>
    match s.react l.reaction with
    | .ok s => notify guard change s (heard ++ [⟨l, change⟩]) later
    | .error e => ⟨.error e, s, guard, heard ++ [⟨l, change⟩]⟩

/-- Writes a variable under a guard. The listeners that are there when the change is made hear of
it. -/
def set (s : Store) (guard : Guard) (name : String) (value : Value) : Write :=
  match guard.check (Check.state name value) with
  | (.error violation, guard) => ⟨.error (.refused violation), s, guard, []⟩
  | (.ok (), guard) =>
    let change := s.changeTo name value
    (s.commit change).notify guard change [] s.listeners

/-- Writes a variable while one more listener is held. -/
def setHeld (s : Store) (guard : Guard) (name : String) (value : Value) (reaction : Reaction) :
    Write :=
  let w := (s.hold reaction).set guard name value
  { w with store := w.store.release }

end Store

namespace Write

/-- Whether a listener asked for the end of the run. -/
def cancels (w : Write) : Bool := w.heard.any fun d => d.listener.reaction == .cancel

end Write

end Screenplay
