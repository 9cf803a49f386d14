/-
The project that a command works on: its manifest, its first source, and the level at which it is
judged. What the command line gives comes before what the manifest says.
-/
import Screenplay.CommandLine.Arguments
import Screenplay.CommandLine.Session
import Screenplay.Compile
import Screenplay.Manifest.Options

namespace Screenplay

namespace ManifestError

/-- Whether an error is a defect of the manifest that the user is told about. -/
def isReported : ManifestError → Bool
  | encoding .. | settings _ | setting _ => true
  | _ => false

end ManifestError

/-- The first source that a setting names; a text names its characters. -/
def Value.firstSource? : Value → Except Crash (Option String)
  | .list (.text name :: _) => .ok (some name)
  | .text s => .ok (s.toList.head?.map Char.toString)
  | .map (_ :: _) => .error .keyedSources
  | v => if v.isVoid then .ok none else .error .uncountableSources

namespace Session

variable {m : Type → Type} [Monad m]

/-! ## The manifest -/

/-- The path of the manifest: the given one, or the usual one in the working directory. -/
def manifestPath (a : Arguments) : Session m Path := do
  match a.manifest with
  | some text => return .ofString text
  | none => return (← read).directory.join (.ofString Manifest.fileName)

/-- The manifest in some bytes. -/
def decodeManifest (bytes : List UInt8) : Session m Manifest :=
  match Manifest.decode bytes with
  | .ok manifest => return manifest
  | .error e =>
    if e.isReported then quit s!"Error: invalid manifest: {e.message}" else crash (.manifest e)

/-- Reads the manifest. A given one has to be there. -/
def readManifest (a : Arguments) : Session m Manifest := do
  let path ← manifestPath a
  match ← readFile path, a.manifest with
  | .ok bytes, _ => decodeManifest bytes
  | .error .missing, some _ => quit s!"Error: manifest not found: {path}"
  | .error .missing, none | .error .notDirectory, none => return .default
  | .error fault, _ => crash (.file fault)

/-- Sets the log level: the given one, or that of the manifest. -/
def setLogLevel (given : Option String) (manifest : Manifest) : Session m Unit := do
  let name := ((given.filter (· != "")).map Text.upper).getD manifest.logLevel
  match Severity.levels.lookup (Text.upper name) with
  | some threshold => modify ({ · with threshold })
  | none =>
    complain s!"Unknown log level '{name}', using WARNING"
    modify ({ · with threshold := Severity.warning.weight })

/-- Reads the manifest and sets the log level. -/
def loadManifest (logLevel : Option String) (a : Arguments) : Session m Manifest := do
  let manifest ← readManifest a
  setLogLevel logLevel manifest
  return manifest

/-! ## The source -/

/-- The directory that the sources of a manifest are in. -/
def sourceDirectory (a : Arguments) : Session m Path := do
  let directory := (← read).directory
  match a.manifest with
  | some text => return (Path.resolve directory (.ofString text)).parent
  | none => return directory

/-- The path of the source: the given one, or the first one of the manifest. -/
def sourcePath (a : Arguments) (manifest : Manifest) : Session m Path := do
  match a.source with
  | some text => return .ofString text
  | none =>
    match manifest.sources.firstSource? with
    | .error c => crash c
    | .ok none => quit "Error: no source file given and the manifest lists none"
    | .ok (some name) => return (← sourceDirectory a).join (.ofString name)

/-- Reads a source. -/
def readSource (path : Path) : Session m SourceInput := do
  match ← readFile path with
  | .ok bytes => return .bytes bytes
  | .error fault => quit s!"Error: cannot read {path}: {fault.message}"

/-! ## The level -/

/-- The level: the given one, or that of the manifest. -/
def chooseLevel (a : Arguments) (manifest : Manifest) : Session m Level :=
  match a.level with
  | none => return manifest.compiler.level
  | some name =>
    match Manifest.level name with
    | .ok level => return level
    | .error e => quit s!"Error: {e.message}"

end Session

end Screenplay
