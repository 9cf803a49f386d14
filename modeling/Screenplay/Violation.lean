/-
Violations of a security policy: the causes for which a program is refused, with their kind, their
wording and their details.
-/
import Screenplay.Level

namespace Screenplay

/-- Why a program, a name or a value is refused. -/
inductive Violation where
  /-- a pattern of the denylist in some place -/
  | denied (pattern place : String)
  /-- access to the host page in a piece of code -/
  | hostAccess (pattern code : String)
  /-- a count or a length above its ceiling -/
  | limit (entity : String) (current limit : Int)
  | dangerousName (name : String)
  | dangerousField (field : String)
  | unsafeComponent (name : String)
  | imageScheme (scheme source : String)
  | script (pattern place : String)
  | unknownImport (path : String)
  | plainHttp (url : String)
  | complexity (score limit : Nat)
  /-- a program riskier than a run accepts -/
  | risk (found allowed : Risk)
deriving Repr, DecidableEq

namespace Violation

/-- The kinds of violations. -/
inductive Kind where
  | dangerousFunction
  | unsafeImport
  | limitExceeded
  | permission
  | complexity
  | unsafeAccess
deriving Repr, DecidableEq

/-- The name of a kind. -/
def Kind.name : Kind → String
  | dangerousFunction => "dangerous_function"
  | unsafeImport => "unsafe_import"
  | limitExceeded => "resource_limit_exceeded"
  | permission => "permission_violation"
  | complexity => "complexity_limit_exceeded"
  | unsafeAccess => "unsafe_data_access"

/-- The kind of a violation. -/
def kind : Violation → Kind
  | denied .. | hostAccess .. => .dangerousFunction
  | limit .. => .limitExceeded
  | dangerousName _ | dangerousField _ | unsafeComponent _ | imageScheme .. | script .. =>
    .unsafeAccess
  | unknownImport _ => .unsafeImport
  | plainHttp _ | risk .. => .permission
  | complexity .. => .complexity

/-- The wording of a hit on the denylist. -/
def deniedText (pattern place : String) : String :=
  s!"Dangerous function '{pattern}' detected in {place}"

/-- The wording of access to the host page. -/
def hostAccessText (pattern : String) : String :=
  s!"Host API access '{pattern}' detected in action code"

/-- The wording of a resource fetched without encryption. -/
def plainHttpText (url : String) : String := s!"Insecure HTTP resource '{url}'"

/-- The wording of a violation. -/
def message : Violation → String
  | denied pattern place => deniedText pattern place
  | hostAccess pattern _ => hostAccessText pattern
  | limit entity current ceiling => s!"{entity} exceeds limit: {current} > {ceiling}"
  | dangerousName name => s!"Dangerous state variable name: {name}"
  | dangerousField field => s!"Dangerous field access: {field}"
  | unsafeComponent name => s!"Unsafe component name: {name}"
  | imageScheme .. => "Dangerous image source scheme detected"
  | script _ place => s!"Script injection attempt detected in {place}"
  | unknownImport path => s!"Import '{path}' is not in the allowed module list"
  | plainHttp url => plainHttpText url
  | complexity score ceiling => s!"Program complexity {score} exceeds limit {ceiling}"
  | risk found allowed => s!"Program risk '{found.name}' exceeds allowed '{allowed.name}'"

/-- What a violation is about: the pattern, name, scheme, address or entity. -/
def subject : Violation → String
  | denied pattern _ | hostAccess pattern _ | script pattern _ => pattern
  | limit entity .. => entity
  | dangerousName name | dangerousField name | unsafeComponent name => name
  | imageScheme scheme _ => scheme
  | unknownImport path => path
  | plainHttp url => url
  | complexity .. => "complexity"
  | risk .. => "risk_level"

/-- The measured quantity and its ceiling. -/
def measure? : Violation → Option (Int × Int)
  | limit _ current ceiling => some (current, ceiling)
  | complexity score ceiling => some (score, ceiling)
  | _ => none

/-- The place or the offending text, where a violation tells it. -/
def details? : Violation → Option String
  | denied _ place | script _ place => some place
  | hostAccess _ code => some code
  | imageScheme _ source => some (String.ofList (source.toList.take 50))
  | _ => none

end Violation

end Screenplay
