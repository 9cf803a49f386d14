/-
Security levels and the ordered risk scale.
-/
namespace Screenplay

/-! ## Levels -/

/-- How strictly a program is judged. -/
inductive Level where
  | strict
  | moderate
  | permissive
deriving Repr, DecidableEq, Inhabited

namespace Level

/-- All levels, the strictest first. -/
def all : List Level := [strict, moderate, permissive]

/-- The name of a level. -/
def name : Level → String
  | strict => "strict"
  | moderate => "moderate"
  | permissive => "permissive"

/-- The level with a name. -/
def ofName? (text : String) : Option Level := all.find? (·.name == text)

theorem ofName?_name (level : Level) : ofName? level.name = some level := by
  cases level <;> decide

end Level

/-! ## Risk -/

/-- The outcome of an analysis on the risk scale. -/
inductive Risk where
  | low
  | medium
  | high
  | critical
deriving Repr, DecidableEq, Inhabited

namespace Risk

/-- All risks in increasing order. -/
def all : List Risk := [low, medium, high, critical]

/-- The name of a risk. -/
def name : Risk → String
  | low => "low"
  | medium => "medium"
  | high => "high"
  | critical => "critical"

/-- The risk with a name. -/
def ofName? (text : String) : Option Risk := all.find? (·.name == text)

/-- The place of a risk on the scale. -/
def rank : Risk → Nat
  | low => 0
  | medium => 1
  | high => 2
  | critical => 3

instance : LE Risk := ⟨fun a b => a.rank ≤ b.rank⟩
instance : LT Risk := ⟨fun a b => a.rank < b.rank⟩
instance (a b : Risk) : Decidable (a ≤ b) := inferInstanceAs (Decidable (a.rank ≤ b.rank))
instance (a b : Risk) : Decidable (a < b) := inferInstanceAs (Decidable (a.rank < b.rank))

/-- The risk of a number of warnings and a number of external resources: more than three warnings
are critical, an external resource alone is high, a warning alone medium. -/
def classify (warnings resources : Int) : Risk :=
  if 3 < warnings then critical
  else if 0 < resources then high
  else if 0 < warnings then medium
  else low

theorem ofName?_name (risk : Risk) : ofName? risk.name = some risk := by
  cases risk <;> decide

end Risk

end Screenplay
