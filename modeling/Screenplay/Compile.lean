/-
From a source text to a program, its report and its artifact. What goes wrong at any stage is part of the
result; only the outline that parsing shows has to be written at any rate. The guard that comes with a
result holds the hits on the denylist that were let through on the way.
-/
import Screenplay.Artifact
import Screenplay.Program.Outline
import Screenplay.Program.Parser
import Screenplay.Report.Analysis
import Screenplay.Run
import Screenplay.Text.Utf8

namespace Screenplay

/-! ## Inputs -/

/-- A source as it is handed in. -/
inductive SourceInput where
  | none
  | text (text : String)
  | bytes (bytes : List UInt8)
  /-- something of a type that holds no text -/
  | other (type : String)

namespace SourceInput

/-- The text of a source. -/
def decode : SourceInput → Except InputError String
  | none => .error .noSource
  | text s => .ok s
  | bytes bs =>
    match Text.Utf8.decode bs with
    | .ok s => .ok s
    | .error e => .error (.notUtf8 e.flaw.reason e.offset)
  | other type => .error (.notText type)

/-- The length of a source, in characters or in bytes. -/
def size : SourceInput → Nat
  | text s => s.length
  | bytes bs => bs.length
  | _ => 0

end SourceInput

/-- The level with a name. -/
def Level.read (name : String) : Except InputError Level :=
  match Level.ofName? name with
  | some level => .ok level
  | none => .error (.unknownLevel name)

/-- Puts warnings after other ones; a warning that is there already is not repeated. -/
def mergeWarnings (first second : List String) : List String := (first ++ second).eraseDups

/-! ## Stages -/

namespace Program

/-- Refuses a program for the first error of its names. -/
def validate (p : Program) : Except Failure Unit :=
  match p.referenceErrors with
  | .error violation => .error (.refused violation)
  | .ok [] => .ok ()
  | .ok (e :: _) => .error (.reference e)

/-- Validates and analyzes a program that was read from a text. -/
def judge (room : Room) (level : Level) (text : String) (p : Program) : Except Failure Report := do
  p.validate
  Report.analyzeIn room level p (some text)

end Program

/-- The level and the text of an input. -/
def readInput (source : SourceInput) (levelName : String) : Except Failure (Level × String) :=
  match source.decode with
  | .error e => .error (.input e)
  | .ok text =>
    match Level.read levelName with
    | .error e => .error (.input e)
    | .ok level => .ok (level, text)

/-! ## Parsing for display -/

/-- What parsing a source gives: the outline whenever the source is a program at all, the report if
nothing is wrong with the program. -/
structure ParseResult where
  outline : Option String
  failure : Option Failure
  warnings : List String
  report : Option Report
  /-- the hits on the denylist that were let through -/
  hits : List Hit

namespace ParseResult

/-- Whether nothing went wrong. -/
def success (r : ParseResult) : Bool := r.failure.isNone

/-- The wording of what went wrong. -/
def errors (r : ParseResult) : List String := r.failure.toList.map Failure.summary

end ParseResult

/-- Parses, validates and analyzes a source, with the room that there is for the outline and for the
analysis. There is no result if the outline of a program cannot be written. -/
def parseSource (outlining analyzing : Room) (source : SourceInput) (levelName : String) :
    Except Shortage ParseResult :=
  match readInput source levelName with
  | .error e => .ok ⟨none, some e, [], none, []⟩
  | .ok (level, text) =>
    match Program.parse level (.ofText text none) with
    | (.error e, guard) => .ok ⟨none, some e, [], none, guard.hits⟩
    | (.ok p, guard) =>
      match p.outlineIn outlining with
      | .error shortage => .error shortage
      | .ok outline =>
        match p.judge analyzing level text with
        | .error e => .ok ⟨some outline, some e, guard.warnings, none, guard.hits⟩
        | .ok report =>
          .ok ⟨some outline, none, mergeWarnings guard.warnings report.warnings, some report, guard.hits⟩

/-! ## Analyzed programs -/

/-- A program that was read, validated and analyzed. -/
structure Analyzed where
  program : Program
  report : Report
  warnings : List String

/-- Reads, validates and analyzes a source; errors name a file. -/
def analyzeSource (room : Room) (source : SourceInput) (levelName : String) (file : Option String) :
    Except Failure Analyzed × List Hit :=
  match readInput source levelName with
  | .error e => (.error e, [])
  | .ok (level, text) =>
    match Program.parse level (.ofText text file) with
    | (.error e, guard) => (.error e, guard.hits)
    | (.ok p, guard) =>
      ((p.judge room level text).map fun report =>
        ⟨p, report, mergeWarnings guard.warnings report.warnings⟩, guard.hits)

/-- Whether a source can be read, validated and analyzed. -/
def validateSource (room : Room) (source : SourceInput) (levelName : String) : Bool :=
  match (analyzeSource room source levelName none).1 with
  | .ok _ => true
  | .error _ => false

/-! ## Compiling -/

/-- The switches of compilation. -/
structure CompileOptions where
  debug : Bool
  optimize : Bool
  target : String
  metadata : Bool
deriving Repr, DecidableEq

/-- The options of a compilation that is given none. -/
def CompileOptions.default : CompileOptions := ⟨false, true, "android", true⟩

/-- The version of this library. -/
def version : String := "0.4.0"

/-- What is told about an artifact. -/
structure Metadata where
  size : Nat
  checksum : String
  permissions : Names
  entryPoints : List String
  target : String
deriving Repr, DecidableEq

/-- A compiled program. -/
structure Compiled where
  artifact : String
  metadata : Metadata
  analyzed : Analyzed

namespace Compiled

/-- Compiles an analyzed program. An artifact is written on one line if it is optimized and not meant
for debugging. -/
def ofAnalyzed (options : CompileOptions) (a : Analyzed) : Compiled :=
  let form : ArtifactForm :=
    ⟨options.optimize && !options.debug, options.target, options.metadata⟩
  let artifact := Artifact.text form a.program a.report.permissions
  { artifact
    metadata :=
      { size := artifact.utf8ByteSize
        checksum := Artifact.checksum artifact
        permissions := a.report.permissions
        entryPoints := a.program.screenNames
        target := options.target }
    analyzed := a }

end Compiled

/-- Compiles a source. -/
def compileSource (room : Room) (source : SourceInput) (levelName : String) (options : CompileOptions) :
    Except Failure Compiled × List Hit :=
  let (outcome, hits) := analyzeSource room source levelName none
  (outcome.map (Compiled.ofAnalyzed options), hits)

/-! ## Benchmarks -/

/-- What is told about the compilation of a source, done over and over; how long it takes is apart from
this. -/
structure Benchmark where
  iterations : Int
  sourceSize : Nat
  success : Bool
deriving Repr, DecidableEq

/-- Compiles a source as often as asked, by default ten times, and once at least. -/
def benchmark (room : Room) (source : SourceInput) (levelName : String) (iterations : Option Int) : Benchmark :=
  ⟨max 1 (iterations.getD 10), source.size, validateSource room source levelName⟩

/-! ## Execution -/

/-- What executing a program gives. -/
structure Execution where
  status : RunStatus
  values : Entries Value
  memory : Int
  events : List Event
  history : List Change
  navigations : List String
  /-- the wording and the kind of what went wrong -/
  failure : Option (String × String)
  /-- the hits on the denylist that were let through -/
  hits : List Hit

namespace Execution

/-- Whether nothing went wrong. -/
def success (x : Execution) : Bool := x.failure.isNone

/-- The execution that a run amounts to. -/
def ofResult (r : RunResult) : Execution :=
  { status := r.status
    values := r.values
    memory := r.memory
    events := r.events
    history := r.history
    navigations := r.navigations
    failure := r.error.map fun e => (e.message, e.kind)
    hits := r.hits }

/-- The wording of a breakdown, with what it is. -/
def breakdownText : Breakdown → String
  | .short shortage => shortage.summary
  | .negativeHistory => "Invalid input: " ++ Breakdown.negativeHistory.message
  | b => "Internal error: " ++ b.message

/-- The execution that a breakdown leaves behind. -/
def ofBreakdown (b : Breakdown) : Execution :=
  ⟨.failed, [], 0, [], [], [], some (breakdownText b, "internal"), []⟩

end Execution

/-- Executes a program once, on an engine and a store of its own. -/
def Program.execute (p : Program) (entry : Option String) (options : RunOptions)
    (risk : Option Risk) : Execution :=
  match ((Engine.ofOptions options).run p entry risk).result with
  | .ok r => .ofResult r
  | .error b => .ofBreakdown b

/-! ## The compiler itself -/

/-- The features of the language that the compiler covers. -/
def features : List String :=
  ["screens", "state", "imports", "data_models", "custom_components", "security_analysis",
    "sandboxed_runtime"]

/-- The description of the compiler. -/
def compilerInfo : Json :=
  .object [("name", .text "sprout-compiler"), ("version", .text version),
    ("default_security_level", .text Level.strict.name),
    ("security_levels", .ofTexts (Level.all.map Level.name)),
    ("target_platforms", .ofTexts ["android"]), ("features", .ofTexts features)]

end Screenplay
