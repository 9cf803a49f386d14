/-
The commands: each one takes the source of a project through some stages and shows the result, as text
or as a document. A result that is no success ends the session with the code one.
-/
import Screenplay.CommandLine.Documents
import Screenplay.CommandLine.Project
import Screenplay.Table

namespace Screenplay.Session

open Screenplay

variable {m : Type → Type} [Monad m]

/-! ## Showing results -/

/-- Shows warnings. -/
def showWarnings (warnings : List String) : Session m Unit :=
  warnings.forM fun warning => say s!"Warning: {warning}"

/-- Shows a text with markup. -/
def showMarkup (text : String) : Session m Unit :=
  match Text.Markup.plain text with
  | .ok shown => say shown
  | .error e => crash (.markup (String.ofList e.tag))

/-- Shows a table. -/
def showTable (table : Table) : Session m Unit :=
  match table.lines with
  | .ok lines => lines.forM say
  | .error e => crash (.markup (String.ofList e.tag))

/-- Ends the session if something went wrong; the errors are shown unless a document has told
them. -/
def settle (errors : List String) (told : Bool) : Session m Unit :=
  if errors.isEmpty then return ()
  else do
    if !told then errors.forM complain
    exit 1

/-- Parses a source at a level. -/
def parseAt (path : Path) (a : Arguments) (manifest : Manifest) : Session m ParseResult := do
  let source ← readSource path
  let level ← chooseLevel a manifest
  match parseSource .usual .usual source level.name with
  | .error shortage => crash (.short shortage)
  | .ok result =>
    logHits result.hits
    return result

/-! ## Compiling -/

/-- Shows a compiled program. -/
def showCompiled (path : Path) (c : Compiled) : Session m Unit := do
  showWarnings c.analyzed.warnings
  say s!"Compiled {path.name}: {c.metadata.size} bytes, risk {c.analyzed.report.risk.name}"
  say s!"Checksum: {c.metadata.checksum}"

/-- Writes the artifact of a compiled program to a file. -/
def writeArtifact (a : Arguments) (c : Compiled) : Session m Unit := do
  match a.output with
  | none => return ()
  | some text =>
    let path := Path.ofString text
    writeFile path c.artifact.toUTF8.toList
    if !a.wantsDocument then say s!"Wrote {path}"

/-- Compiles the source into an artifact. -/
def compile (a : Arguments) (manifest : Manifest) : Session m Unit := do
  let path ← sourcePath a manifest
  match manifest.compiler.options? with
  | none => crash .badSetting
  | some options =>
    let source ← readSource path
    let level ← chooseLevel a manifest
    let (outcome, hits) := compileSource .usual source level.name options
    logHits hits
    if let .ok c := outcome then
      let name := Text.quoted c.analyzed.program.name
      log .info "sprout.core.compiler" s!"Compiled app {name} ({c.metadata.size} bytes)"
    if a.wantsDocument then present .listing (compileDocument outcome)
    match outcome with
    | .error e => settle [e.summary] a.wantsDocument
    | .ok c =>
      if !a.wantsDocument then showCompiled path c
      writeArtifact a c

/-! ## Parsing -/

/-- Shows the outline of the source. -/
def parse (a : Arguments) (manifest : Manifest) : Session m Unit := do
  let path ← sourcePath a manifest
  let result ← parseAt path a manifest
  if a.wantsDocument then present .listing result.document
  else
    result.outline.forM say
    showWarnings result.warnings
  settle result.errors a.wantsDocument

/-- Tells whether the source is valid. -/
def validate (a : Arguments) (manifest : Manifest) : Session m Unit := do
  let path ← sourcePath a manifest
  let result ← parseAt path a manifest
  if a.wantsDocument then present .asciiListing result.verdict
  else if result.success then
    showWarnings result.warnings
    say s!"OK: {path.name} is valid"
  settle result.errors a.wantsDocument

/-! ## Analyzing -/

/-- The cell of some names. -/
def namesCell (names : Names) : String :=
  if names.isEmpty then "-" else Text.join ", " names

/-- The table of a report. -/
def reportTable (r : Report) : Table :=
  { title := "Security report"
    columns := ["Field", "Value"]
    rows := [
      ["Risk level", r.risk.name],
      ["Security level", r.level.name],
      ["Complexity", toString r.complexity],
      ["Quality score", toString r.quality],
      ["UI elements", toString r.elements],
      ["Permissions", namesCell r.permissions],
      ["External resources", namesCell r.resources],
      ["Navigation targets", namesCell r.targets],
      ["Function calls", namesCell r.calls],
      ["Imports", namesCell r.imports],
      ["Accessed state", namesCell r.accessed],
      ["Sensitive inputs", namesCell r.sensitive],
      ["Warnings", toString r.warnings.length]] }

/-- Shows a report with its warnings. -/
def showReport (r : Report) : Session m Unit := do
  showTable (reportTable r)
  r.warnings.forM fun warning => showMarkup s!"[yellow]warning[/yellow] {warning}"

/-- Shows the report of the source. -/
def analyze (a : Arguments) (manifest : Manifest) : Session m Unit := do
  let path ← sourcePath a manifest
  let result ← parseAt path a manifest
  settle result.errors false
  result.report.forM fun r =>
    if a.wantsDocument then present .listing r.document else showReport r

/-! ## Running -/

/-- The table of the values after a run. -/
def valuesTable (values : Entries Value) : Table :=
  { title := "Final state"
    columns := ["Variable", "Value"]
    rows := (Json.sortEntries values).map fun (name, value) => [name, value.render] }

/-- Shows an execution. The events are not clocked one by one: each is shown with the time of the
run. -/
def showExecution (trace : Bool) (time : String) (x : Execution) : Session m Unit := do
  say s!"Status: {x.status.name} ({time} ms)"
  if !x.navigations.isEmpty then say ("Navigations: " ++ Text.join " -> " x.navigations)
  showTable (valuesTable x.values)
  if trace then x.events.forM fun e => say s!"  [{time} ms] {e.kind.name}: {e.detail}"

/-- Logs how an execution went. -/
def logExecution (x : Execution) : Session m Unit := do
  logHits x.hits
  match x.failure with
  | none => return ()
  | some (text, kind) =>
    if kind = "internal" then log .error "sprout.core.compiler" "Internal runtime error"
    else log .info "sprout.runtime.engine" s!"Execution ended with {x.status.name}: {text}"

/-- The screen that a run starts with: the given one, or that of the manifest. -/
def entryScreen? (a : Arguments) (manifest : Manifest) : Option String :=
  (a.screen.filter (· != "")).or manifest.run.entryScreen?

/-- Runs the program of the source. -/
def run (a : Arguments) (manifest : Manifest) : Session m Unit := do
  let path ← sourcePath a manifest
  let level ← chooseLevel a manifest
  let source ← readSource path
  let (outcome, hits) := analyzeSource .usual source level.name (some path.toString)
  logHits hits
  match outcome with
  | .error (.short .stack) => crash (.short .stack)
  | .error e => quit e.summary
  | .ok analyzed =>
    match manifest.run.options? level with
    | none => crash .badSetting
    | some options =>
      let x := analyzed.program.execute (entryScreen? a manifest) options analyzed.report.risk
      logExecution x
      if a.wantsDocument then present .listing x.document
      else showExecution a.trace (← elapsed) x
      x.failure.forM fun failure => quit s!"Execution {x.status.name}: {failure.1}"

end Screenplay.Session
