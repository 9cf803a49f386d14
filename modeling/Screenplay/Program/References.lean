/-
References: the names that a program uses and has to declare. Every offending occurrence gives one
error, in program order.
-/
import Screenplay.Policy
import Screenplay.Program.Sites
import Screenplay.Violation

namespace Screenplay

/-! ## Errors -/

/-- What is wrong with a name. -/
inductive ReferenceCause where
  | unknownStart
  | repeatedScreen
  | repeatedState
  | unknownTarget
  | unknownBinding
  | unknownHandler
deriving Repr, DecidableEq

/-- A name that is not declared, or declared twice. -/
structure ReferenceError where
  cause : ReferenceCause
  name : String
  /-- the screen in which the name is used -/
  screen : Option String
deriving Repr, DecidableEq

namespace ReferenceError

/-- The kind of an error. -/
def kind (e : ReferenceError) : String :=
  match e.cause with
  | .repeatedScreen | .repeatedState => "duplicate_definition"
  | _ => "undefined_reference"

/-- What is wrong, without the place. -/
def problem (e : ReferenceError) : String :=
  match e.cause with
  | .unknownStart => s!"Start screen '{e.name}' is not defined"
  | .repeatedScreen => s!"Duplicate screen '{e.name}'"
  | .repeatedState => s!"Duplicate state variable '{e.name}'"
  | .unknownTarget => s!"Undefined navigation target '{e.name}'"
  | .unknownBinding => s!"Undefined state binding '{e.name}'"
  | .unknownHandler => s!"Undefined action '{e.name}'"

/-- The wording of an error: the problem, and the screen if that has a name. -/
def message (e : ReferenceError) : String :=
  match e.screen with
  | none | some "" => e.problem
  | some screen => e.problem ++ s!" (in screen '{screen}')"

end ReferenceError

/-! ## Checking -/

/-- The names of a list that stand in it, or among `seen`, before. -/
def repeatedNames (seen : List String) : List String → List String
  | [] => []
  | n :: ns => if seen.contains n then n :: repeatedNames seen ns else repeatedNames (n :: seen) ns

namespace Site

/-- The nesting that a site adds to. -/
def nesting : Site → Nat
  | .node depth _ => depth
  | .block under depth => under + depth
  | _ => 0

/-- The unresolved name at a site of a screen of a program with some screens. -/
def referenceError? (screens : List String) (s : Screen) (site : Site) : Option ReferenceError :=
  let refer (known : Bool) (cause : ReferenceCause) (name : String) : Option ReferenceError :=
    if known then none else some ⟨cause, name, some s.name⟩
  match site with
  | .node _ (.input _ binding) | .node _ (.list binding _) =>
    refer ((s.state.map (·.name)).contains binding) .unknownBinding binding
  | .handler name => refer ((s.handlers.map (·.name)).contains name) .unknownHandler name
  | .action (.navigate n) =>
    refer (screens.contains n.target || backTargets.contains n.target) .unknownTarget n.target
  | _ => none

end Site

/-- The errors inside a screen. -/
def Screen.referenceErrors (screens : List String) (s : Screen) : List ReferenceError :=
  (repeatedNames [] (s.state.map (·.name))).map (⟨.repeatedState, ·, some s.name⟩)
    ++ s.sites.filterMap (Site.referenceError? screens s)

/-- The errors of some screens, after the screens `seen`. -/
def screenErrors (screens seen : List String) : List Screen → List ReferenceError
  | [] => []
  | s :: later =>
    (if seen.contains s.name then [⟨.repeatedScreen, s.name, some s.name⟩] else [])
      ++ s.referenceErrors screens ++ screenErrors screens (s.name :: seen) later

namespace Program

/-- The first place of a program that is nested too deeply to be checked. -/
def nestingViolation? (p : Program) : Option Violation :=
  ((p.screens.flatMap Screen.sites).find? fun site => maxDepth < site.nesting).map
    fun site => .limit "nesting depth" site.nesting maxDepth

/-- All errors of the names of a program, in program order: first that of the start screen, then
those of each screen. -/
def referenceErrors (p : Program) : Except Violation (List ReferenceError) :=
  match p.nestingViolation? with
  | some violation => .error violation
  | none =>
    .ok ((if p.screenNames.contains p.start then [] else [⟨.unknownStart, p.start, none⟩])
      ++ screenErrors p.screenNames [] p.screens)

end Program

end Screenplay
