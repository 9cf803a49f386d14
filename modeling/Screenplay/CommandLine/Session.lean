/-
A session of the command line: what it meets outside of itself, what it shows, and how it ends. A
session is a program over any world that can read and write files, so that it runs on the files of a
machine and on files in memory alike.
-/
import Screenplay.Files
import Screenplay.Guard
import Screenplay.Json
import Screenplay.Manifest
import Screenplay.Shortage

namespace Screenplay

/-! ## The world -/

/-- What a session meets outside of itself. -/
structure World (m : Type → Type) where
  /-- the directory that relative paths start from -/
  directory : Path
  /-- the log level that is preset -/
  logLevel : Option String
  read : Path → m (Except FileFault (List UInt8))
  write : Path → List UInt8 → m (Except FileFault Unit)
  /-- the time that has passed, in milliseconds -/
  elapsed : m String

/-- The world of some files in memory, in which time is a fixed text. -/
def Files.world (directory : Path) (logLevel : Option String) (time : String) :
    World (StateM Files) where
  directory := directory
  logLevel := logLevel
  read p := fun files => (files.read p, files)
  write p bytes := fun files =>
    match files.write p bytes with
    | .ok files => (.ok (), files)
    | .error fault => (.error fault, files)
  elapsed := pure time

/-! ## Log levels -/

/-- The weight of a line in the log. -/
structure Severity where
  name : String
  weight : Nat
deriving Repr, DecidableEq

namespace Severity

/-- A line that tells of success. -/
def info : Severity := ⟨"INFO", 20⟩

/-- A line that warns. -/
def warning : Severity := ⟨"WARNING", 30⟩

/-- A line that tells of a failure. -/
def error : Severity := ⟨"ERROR", 40⟩

/-- The log levels: the least weight that a line needs to be shown. -/
def levels : List (String × Nat) := [
  ("NOTSET", 0), ("DEBUG", 10), ("INFO", 20), ("WARN", 30), ("WARNING", 30), ("ERROR", 40),
  ("FATAL", 50), ("CRITICAL", 50)]

end Severity

/-! ## What a session shows -/

/-- A piece of the output. -/
inductive Output where
  | line (text : String)
  | document (style : Json.Style) (json : Json)

/-- The text of a piece of the output. -/
def Output.text : Output → String
  | line text => text ++ "\n"
  | document style json => json.render style ++ "\n"

/-- What a session has shown, and what it logs. -/
structure Transcript where
  output : List Output
  errors : List String
  /-- the least weight of a line that is logged -/
  threshold : Nat

/-- Why a session breaks off without telling a reason. -/
inductive Crash where
  | manifest (error : ManifestError)
  /-- sources that cannot be counted -/
  | uncountableSources
  /-- sources that are a table -/
  | keyedSources
  /-- a setting that cannot be converted -/
  | badSetting
  | markup (tag : String)
  | file (fault : FileFault)
  /-- a text cannot be written -/
  | short (shortage : Shortage)
deriving Repr, DecidableEq

/-- The wording of a crash. -/
def Crash.message : Crash → String
  | manifest e => e.message
  | uncountableSources => "the sources of the manifest are no list of names"
  | keyedSources => "the sources of the manifest are a table"
  | badSetting => "a setting of the manifest has the wrong type"
  | markup tag => s!"closing tag '[{tag}]' doesn't match any open tag"
  | file fault => fault.message
  | short shortage => shortage.message

/-- How a session ends early. -/
inductive Ending where
  | exit (code : Nat)
  | crash (crash : Crash)
deriving Repr, DecidableEq

/-- A part of a session. -/
abbrev Session (m : Type → Type) (α : Type) :=
  ReaderT (World m) (ExceptT Ending (StateT Transcript m)) α

namespace Session

variable {m : Type → Type} [Monad m] {α : Type}

/-- Shows a piece of output. -/
def put (piece : Output) : Session m Unit :=
  modify fun t => { t with output := t.output ++ [piece] }

/-- Shows a line. -/
def say (text : String) : Session m Unit := put (.line text)

/-- Shows a document. -/
def present (style : Json.Style) (json : Json) : Session m Unit := put (.document style json)

/-- Shows a line among the errors. -/
def complain (text : String) : Session m Unit :=
  modify fun t => { t with errors := t.errors ++ [text] }

/-- Logs a line of a part of the program. -/
def log (severity : Severity) (origin text : String) : Session m Unit := do
  if (← get).threshold ≤ severity.weight then complain s!"{severity.name} {origin}: {text}"

/-- Logs the hits on the denylist that were let through. -/
def logHits (hits : List Hit) : Session m Unit :=
  hits.forM fun hit => log .warning "sprout.core.guards" hit.text

/-- Ends the session with a code. -/
def exit (code : Nat) : Session m α := throw (.exit code)

/-- Ends the session as a failure. -/
def quit (text : String) : Session m α := do
  complain text
  exit 1

/-- Breaks the session off. -/
def crash (c : Crash) : Session m α := throw (.crash c)

/-- Reads a file. -/
def readFile (p : Path) : Session m (Except FileFault (List UInt8)) := do
  let world ← read
  let bytes ← (world.read p : m _)
  return bytes

/-- Writes a file. -/
def writeFile (p : Path) (bytes : List UInt8) : Session m Unit := do
  let world ← read
  match ← (world.write p bytes : m _) with
  | .ok () => return ()
  | .error fault => crash (.file fault)

/-- The time that has passed. -/
def elapsed : Session m String := do
  let world ← read
  let time ← (world.elapsed : m _)
  return time

end Session

/-! ## Outcomes -/

/-- What is left of a session. -/
structure Outcome where
  code : Nat
  output : List Output
  errors : List String
  crash : Option Crash

namespace Outcome

/-- The text that a session shows. -/
def outputText (o : Outcome) : String := String.join (o.output.map Output.text)

/-- The text that a session shows among the errors. -/
def errorText (o : Outcome) : String := String.join (o.errors.map (· ++ "\n"))

/-- The outcome of an ending. -/
def ofEnding : Except Ending Unit × Transcript → Outcome
  | (.ok (), t) => ⟨0, t.output, t.errors, none⟩
  | (.error (.exit code), t) => ⟨code, t.output, t.errors, none⟩
  | (.error (.crash c), t) => ⟨1, t.output, t.errors, some c⟩

end Outcome

/-- Holds a session in a world. -/
def Session.hold {m : Type → Type} [Monad m] (session : Session m Unit) (world : World m) :
    m Outcome :=
  Outcome.ofEnding <$> (session.run world).run.run ⟨[], [], Severity.warning.weight⟩

end Screenplay
