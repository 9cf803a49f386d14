/-
The manifest of a project: its sources, how they are compiled and run, and how much is logged. A
manifest is read from settings; what it leaves out has a default. Only the level and the time allowed
are checked when it is read: other settings are kept the way they were written until a command needs
them.
-/
import Screenplay.InputError
import Screenplay.Settings.Parser
import Screenplay.Text.Case
import Screenplay.Text.Utf8

namespace Screenplay

/-! ## Errors -/

/-- Why some text is no manifest. -/
inductive ManifestError where
  /-- bytes that are no text -/
  | encoding (error : Text.Utf8.Error) (byte : UInt8)
  | settings (error : SettingsError)
  | setting (error : InputError)
  /-- a section that is no table, or a setting that is no text -/
  | wrongType
  /-- a list or a table where a number is needed -/
  | notNumeric (type : String)
  /-- a whole number too large for a time -/
  | overflow
deriving Repr, DecidableEq

/-- The wording of an encoding error. -/
def Text.Utf8.Error.message (e : Error) (byte : UInt8) : String :=
  let bytes :=
    if e.length = 1 then s!"byte 0x{String.ofList (Text.hex 2 byte.toNat)} in position {e.offset}"
    else s!"bytes in position {e.offset}-{e.offset + e.length - 1}"
  s!"'utf-8' codec can't decode {bytes}: {e.flaw.reason}"

/-- The wording of a settings error. -/
def SettingsError.message : SettingsError → String
  | problem p place => s!"{p.message} (at {Settings.showPlace place})"
  | longNumber digits => (InputError.longNumber digits).message

/-- The wording of a manifest error. -/
def ManifestError.message : ManifestError → String
  | encoding e byte => e.message byte
  | settings e => e.message
  | setting e => e.message
  | wrongType => "wrong type"
  | notNumeric type => s!"float() argument must be a string or a real number, not '{type}'"
  | overflow => "int too large to convert to float"

/-! ## Manifests -/

/-- How the sources of a project are compiled. -/
structure CompilerSettings where
  level : Level
  target : Value
  debug : Value
  optimize : Value
  metadata : Value

/-- How the programs of a project are run. -/
structure RunSettings where
  /-- the time allowed, in seconds -/
  maxSeconds : Float
  maxMemory : Value
  debug : Value
  /-- the screen that is shown first; null stands for the start screen of the program -/
  entry : Value
  maxHistory : Value
  maxEvents : Value

/-- The manifest of a project. -/
structure Manifest where
  name : Value
  version : Value
  sources : Value
  compiler : CompilerSettings
  run : RunSettings
  /-- the name of the log level, in capitals -/
  logLevel : String

namespace Manifest

/-- The name of the file that holds a manifest. -/
def fileName : String := "sprout.toml"

/-- The manifest of a project that has none. -/
def default : Manifest :=
  { name := .text "sprout-app"
    version := .text "0.1.0"
    sources := .list [.text "app.sprout"]
    compiler := ⟨.strict, .text "android", .bool false, .bool true, .bool true⟩
    run := ⟨10, .int (1024 * 1024), .bool false, .null, .int 100, .int 1000⟩
    logLevel := "WARNING" }

/-! ## Settings by name -/

/-- A section of the settings; one that is not there is empty. -/
def section? (table : Entries Value) (name : String) : Except ManifestError (Entries Value) :=
  match table.get? name with
  | none => .ok []
  | some (.map inner) => .ok inner
  | some _ => .error .wrongType

/-- A setting as it was written, or its default. -/
def raw (table : Entries Value) (name : String) (default : Value) : Value :=
  (table.get? name).getD default

/-- A setting that is a text. -/
def text (table : Entries Value) (name default : String) : Except ManifestError String :=
  match table.get? name with
  | none => .ok default
  | some (.text s) => .ok s
  | some _ => .error .wrongType

/-- The number of seconds that a value stands for; a text is read as a number. -/
def seconds : Value → Except ManifestError Float
  | .float x => .ok x
  | .bool b => .ok (if b then 1 else 0)
  | .int n =>
    match floatOfInt? n with
    | some x => .ok x
    | none => .error .overflow
  | .text s =>
    match decimal? s.toList with
    | some x => .ok x
    | none => .error (.setting (.notNumber s))
  | .null => .error (.notNumeric "NoneType")
  | .list _ => .error (.notNumeric "list")
  | .map _ => .error (.notNumeric "dict")

/-- The level with a name in any letter case. -/
def level (name : String) : Except InputError Level :=
  match Level.ofName? (String.ofList (Text.fold name.toList)) with
  | some level => .ok level
  | none => .error (.unknownSetting name)

/-! ## Reading -/

/-- The compiler settings in a section. -/
def readCompiler (table : Entries Value) : Except ManifestError CompilerSettings := do
  let base := default.compiler
  let name ← text table "security_level" base.level.name
  let level ← (level name).mapError .setting
  return {
    level
    target := raw table "target_platform" base.target
    debug := raw table "debug" base.debug
    optimize := raw table "optimize" base.optimize
    metadata := raw table "include_metadata" base.metadata }

/-- The run settings in a section. -/
def readRun (table : Entries Value) : Except ManifestError RunSettings := do
  let base := default.run
  let maxSeconds ← seconds (raw table "max_execution_time" (.float base.maxSeconds))
  return {
    maxSeconds
    maxMemory := raw table "max_memory" base.maxMemory
    debug := raw table "debug" base.debug
    entry := raw table "entry_screen" base.entry
    maxHistory := raw table "max_history" base.maxHistory
    maxEvents := raw table "max_events" base.maxEvents }

/-- The manifest in some settings. -/
def ofSettings (table : Entries Value) : Except ManifestError Manifest := do
  let compiler ← readCompiler (← section? table "compiler")
  let run ← readRun (← section? table "runtime")
  let project ← section? table "project"
  let logLevel ← text (← section? table "logging") "level" default.logLevel
  return {
    name := raw project "name" default.name
    version := raw project "version" default.version
    sources := raw project "sources" default.sources
    compiler
    run
    logLevel := Text.upper logLevel }

/-- The manifest in the text of a file. -/
def read (text : String) : Except ManifestError Manifest :=
  match Settings.read text with
  | .ok table => ofSettings table
  | .error e => .error (.settings e)

/-- The manifest in the bytes of a file. -/
def decode (bytes : List UInt8) : Except ManifestError Manifest :=
  match Text.Utf8.decode bytes with
  | .ok text => read text
  | .error e => .error (.encoding e (bytes.getD e.offset 0))

end Manifest

end Screenplay
