/-
The security analysis: all findings of a program in program order, and the report that follows from
them. The first violation among the findings refuses the program instead. An analysis ends before it if
a text that it needs cannot be written.
-/
import Screenplay.Failure
import Screenplay.Report
import Screenplay.Report.Finding

namespace Screenplay

/-! ## The findings of a program -/

namespace Finding

/-- The findings in a data model. -/
def ofModel (policy : Policy) (m : DataModel) : List Finding :=
  ofText policy m.name "data model name"
    ++ m.fields.flatMap fun f =>
      ofStateName policy f.name ++ ofValue policy s!"field '{f.name}'" f.default

/-- The findings in a handler. -/
def ofHandler (policy : Policy) (h : Handler) : List Finding :=
  ofText policy h.name "action name" ++ h.sites.flatMap (ofSite policy)

/-- The findings in a screen. -/
def ofScreen (policy : Policy) (s : Screen) : List Finding :=
  ofText policy s.name "screen name"
    ++ s.params.flatMap (fun p => ofStateName policy p.name)
    ++ s.state.flatMap (ofStateVar policy)
    ++ (s.ui.sites 1).flatMap (ofSite policy)
    ++ ofLimit s!"UI elements in screen '{s.name}'" s.ui.size policy.maxElements
    ++ s.handlers.flatMap (ofHandler policy)

/-- The findings in a program and its source text, as far as they concern single places. -/
def ofProgram (policy : Policy) (p : Program) (source : Option String) : List Finding :=
  ofLimit "screens" p.screens.length policy.maxScreens
    ++ ofLimit "state variables" p.stateCount policy.maxStateVariables
    ++ ofText policy p.name "app name"
    ++ p.imports.flatMap (ofImport policy)
    ++ p.models.flatMap (ofModel policy)
    ++ p.state.flatMap (ofStateVar policy)
    ++ p.screens.flatMap (ofScreen policy)
    ++ (urls (source.getD "").toList).flatMap (ofUrl policy)

/-! ## Collecting -/

/-- The first violation among some findings. -/
def firstViolation? (found : List Finding) : Option Violation :=
  found.findSome? fun | violation v => some v | _ => none

/-- The warnings among some findings, each once, in order. -/
def warnings (found : List Finding) : List String :=
  (found.filterMap fun | warning text => some text | _ => none).eraseDups

/-- The distinct functions called. -/
def calls (found : List Finding) : Names :=
  Names.ofList (found.filterMap fun | call name => some name | _ => none)

/-- The external resources. -/
def resources (found : List Finding) : Names :=
  Names.ofList (found.filterMap fun | resource url => some url | _ => none)

/-- The findings that concern a program as a whole, after those that concern its places. -/
def ofWhole (policy : Policy) (p : Program) (found : List Finding) : List Finding :=
  ofLimit "function calls" (calls found).length policy.maxFunctions
    ++ refuseIf (policy.maxComplexity < p.complexity) (.complexity p.complexity policy.maxComplexity)

/-- All findings of a program and its source text. -/
def all (policy : Policy) (p : Program) (source : Option String) : List Finding :=
  ofProgram policy p source ++ ofWhole policy p (ofProgram policy p source)

/-- What the first text that cannot be written is short of, among those needed before the first
violation. -/
def shortage? (room : Room) : List Finding → Option Shortage
  | [] | violation _ :: _ => none
  | wording e :: found => (e.shortage? (room 0)).or (shortage? room.later found)
  | _ :: found => shortage? room found

end Finding

/-! ## The report -/

namespace Report

/-- The report on a program with some findings. -/
def ofFindings (policy : Policy) (p : Program) (found : List Finding) : Report :=
  let warnings := Finding.warnings found
  let resources := Finding.resources found
  { risk := Risk.classify warnings.length resources.length
    level := policy.level
    permissions := Names.ofList (found.filterMap fun | .permission name => some name | _ => none)
    resources
    targets := Names.ofList (found.filterMap fun | .target name => some name | _ => none)
    calls := Finding.calls found
    imports := Names.ofList (found.filterMap fun | .imported path => some path | _ => none)
    accessed := Names.ofList (found.filterMap fun | .access name => some name | _ => none)
    sensitive := Names.ofList (found.filterMap fun | .sensitive binding => some binding | _ => none)
    warnings
    complexity := p.complexity
    quality := qualityOf warnings.length resources.length
    elements := total (p.screens.map (·.ui.size)) }

/-- What the findings in a program at a level come to. The addresses in the source text, if one is given,
are taken into account. -/
def analyze (level : Level) (p : Program) (source : Option String) : Except Violation Report :=
  let policy := Policy.ofLevel level
  match Finding.firstViolation? (Finding.all policy p source) with
  | some violation => .error violation
  | none => .ok (ofFindings policy p (Finding.ofProgram policy p source))

/-- Analyzes a program at a level, in the room that there is for the texts that it needs. -/
def analyzeIn (room : Room) (level : Level) (p : Program) (source : Option String) :
    Except Failure Report :=
  match Finding.shortage? room (Finding.all (Policy.ofLevel level) p source) with
  | some shortage => .error (.short shortage)
  | none =>
    match analyze level p source with
    | .ok report => .ok report
    | .error violation => .error (.refused violation)

end Report

end Screenplay
