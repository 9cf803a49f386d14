/-
Programs: an app with its state, its imports and data models, and its screens.
-/
import Screenplay.Node

namespace Screenplay

/-- A declared state variable with its first value. -/
structure StateVar where
  name : String
  value : Value
deriving Inhabited

/-- A parameter of a screen. -/
structure Param where
  name : String
  typeName : String
deriving Repr, DecidableEq, Inhabited

/-- A named list of actions of a screen. -/
structure Handler where
  name : String
  body : List Action
deriving Inhabited

/-- A screen: parameters, state, one UI tree and named handlers. -/
structure Screen where
  name : String
  params : List Param
  state : List StateVar
  ui : Node
  handlers : List Handler
deriving Inhabited

/-- The handler of a screen with a name. -/
def Screen.handler? (s : Screen) (name : String) : Option Handler :=
  s.handlers.find? (·.name == name)

/-- A field of a data model. -/
structure DataField where
  name : String
  typeName : String
  default : Value
deriving Inhabited

/-- A record type. -/
structure DataModel where
  name : String
  fields : List DataField
deriving Inhabited

/-- A whole program. -/
structure Program where
  name : String
  start : String
  screens : List Screen
  state : List StateVar
  /-- the paths of the imported modules -/
  imports : List String
  models : List DataModel
deriving Inhabited

namespace Program

/-- The screen with a name, the first one if there are several. -/
def screen? (p : Program) (name : String) : Option Screen := p.screens.find? (·.name == name)

/-- The names of the screens in order. -/
def screenNames (p : Program) : List String := p.screens.map (·.name)

/-- The number of state variables, those of the app and of all screens. -/
def stateCount (p : Program) : Nat :=
  p.state.length + total (p.screens.map (·.state.length))

/-- The weight of a program: its screens, two per import, three per data model, and for every screen
its state variables, two per handler and the weight of its UI tree. -/
def complexity (p : Program) : Nat :=
  p.screens.length + 2 * p.imports.length + 3 * p.models.length
    + total (p.screens.map fun s => s.state.length + 2 * s.handlers.length + s.ui.complexity)

end Program

end Screenplay
