/-
Guards: the checks that names, literals and values have to pass, and a guard that applies them in
order under one policy. A check that fails stops the guard; under a lenient policy a hit on the
denylist is noted instead.
-/
import Screenplay.Policy
import Screenplay.Value
import Screenplay.Violation

namespace Screenplay

/-! ## Checks -/

/-- One condition on a name, a text or a count. -/
inductive Check where
  /-- a text in some place holds no pattern of the denylist -/
  | text (text place : String)
  /-- a count or a length stays below its ceiling -/
  | limit (entity : String) (current limit : Int)
  /-- a count or a length stays below a ceiling of the policy -/
  | capped (ceiling : Ceiling) (entity : String) (current : Int)
  /-- a name is not one of the dangerous ones -/
  | name (name : String)
deriving Repr, DecidableEq

namespace Check

/-- What a check finds wrong. -/
def violation? (policy : Policy) : Check → Option Violation
  | text t place => (policy.findBlocked t).map (.denied · place)
  | limit entity current ceiling =>
    if ceiling < current then some (.limit entity current ceiling) else none
  | capped ceiling entity current =>
    if policy.ceiling ceiling < current then some (.limit entity current (policy.ceiling ceiling)) else none
  | name n => if dangerousNames.contains n then some (.dangerousName n) else none

/-! ## What names and values have to pass -/

/-- The name of an app. -/
def appName (n : String) : List Check :=
  [limit "app name length" n.length maxAppName, text n "app name"]

/-- Where the name and the value of a state variable are reported. -/
def statePlace (n : String) : String := s!"state variable '{n}'"

/-- The name of a state variable. -/
def stateName (n : String) : List Check :=
  [limit "state variable name length" n.length maxStateName, name n, text n (statePlace n)]

/-- A text of bounded length. -/
def string (t place : String) : List Check :=
  [capped .string "string value length" t.length, text t place]

mutual

/-- A value at some depth of nesting, with everything inside it. -/
def value (place : String) (depth : Nat) : Value → List Check
  | .text t => limit "value nesting depth" depth maxDepth :: string t place
  | .list items =>
    limit "value nesting depth" depth maxDepth :: limit "array value length" items.length maxItems
      :: values place (depth + 1) items
  | .map entries =>
    limit "value nesting depth" depth maxDepth
      :: limit "map value entries" entries.length maxMapEntries :: entryValues place (depth + 1) entries
  | _ => [limit "value nesting depth" depth maxDepth]

/-- The items of a list value. -/
def values (place : String) (depth : Nat) : List Value → List Check
  | [] => []
  | v :: vs => value place depth v ++ values place depth vs

/-- The names and values of the entries of a map value. -/
def entryValues (place : String) (depth : Nat) : List (String × Value) → List Check
  | [] => []
  | (k, v) :: es => text k place :: value place depth v ++ entryValues place depth es

end

/-- A state variable: its name and its value. -/
def state (n : String) (v : Value) : List Check := stateName n ++ value (statePlace n) 0 v

/-- The number of state variables of a program. -/
def stateCount (count : Int) : Check := capped .stateVariables "state variables" count

/-- The number of screens of a program. -/
def screenCount (count : Int) : Check := capped .screens "screens" count

/-- The number of UI elements of a screen. -/
def elementCount (screen : String) (count : Int) : Check :=
  capped .elements s!"UI elements in screen '{screen}'" count

end Check

/-! ## Guards -/

/-- A hit on the denylist that was let through. -/
structure Hit where
  pattern : String
  place : String
deriving Repr, DecidableEq

/-- The warning about a hit. -/
def Hit.text (h : Hit) : String := Violation.deniedText h.pattern h.place

/-- A policy, and the hits that were let through under it, without repetition and in order. -/
structure Guard where
  policy : Policy
  hits : List Hit
deriving Repr, DecidableEq

namespace Guard

/-- A guard of a level, without hits. -/
def ofLevel (level : Level) : Guard := ⟨Policy.ofLevel level, []⟩

/-- Notes a hit, once. -/
def note (guard : Guard) (hit : Hit) : Guard :=
  if guard.hits.contains hit then guard else { guard with hits := guard.hits ++ [hit] }

/-- Applies one check. -/
def checkOne (guard : Guard) (check : Check) : Except Violation Unit × Guard :=
  match check.violation? guard.policy with
  | none => (.ok (), guard)
  | some (.denied pattern place) =>
    if guard.policy.lenient then (.ok (), guard.note ⟨pattern, place⟩)
    else (.error (.denied pattern place), guard)
  | some violation => (.error violation, guard)

/-- Applies checks in order until one fails. -/
def check (guard : Guard) : List Check → Except Violation Unit × Guard
  | [] => (.ok (), guard)
  | c :: cs =>
    match guard.checkOne c with
    | (.ok (), guard) => guard.check cs
    | failed => failed

/-- The warnings about the hits let through so far. -/
def warnings (guard : Guard) : List String := guard.hits.map Hit.text

end Guard

end Screenplay
