/-
Files: what can go wrong when one is read or written, and a collection of files in memory. A place is
the list of names that lead there from the root; a place before the one of a file is a directory.
-/
import Screenplay.Path

namespace Screenplay

/-- Why a file cannot be read or written. -/
inductive FileFault where
  | missing
  /-- the path is that of a directory -/
  | directory
  /-- the path leads through a file -/
  | notDirectory
  | other (reason : String)
deriving Repr, DecidableEq

/-- The wording of a fault. -/
def FileFault.message : FileFault → String
  | missing => "No such file or directory"
  | directory => "Is a directory"
  | notDirectory => "Not a directory"
  | other reason => reason

/-- Files in memory. -/
structure Files where
  /-- the directory that relative paths start from -/
  directory : Path
  contents : List (List String × List UInt8)
deriving Repr, DecidableEq

namespace Files

/-! ## Places -/

/-- Whether a place is a file. -/
def isFile (files : Files) (place : List String) : Bool := (files.contents.lookup place).isSome

/-- Whether a place is a directory: the working directory, one on the way to it, or one on the way to
a file. -/
def isDirectory (files : Files) (place : List String) : Bool :=
  place.isPrefixOf files.directory.parts
    || files.contents.any fun file => place.isPrefixOf file.1 && place.length < file.1.length

/-- Refuses a place that is no directory. -/
def enter (files : Files) (place : List String) : Except FileFault Unit :=
  if files.isFile place then .error .notDirectory
  else if files.isDirectory place then .ok ()
  else .error .missing

/-- Goes on from a place to a name. -/
def step (files : Files) (place : List String) (part : String) :
    Except FileFault (List String) :=
  (files.enter place).map fun _ => Path.step place part

/-- The place that a path leads to. -/
def locate (files : Files) (p : Path) : Except FileFault (List String) :=
  (files.directory.join p).parts.foldlM files.step []

/-! ## Reading and writing -/

/-- The content of a file. -/
def read (files : Files) (p : Path) : Except FileFault (List UInt8) := do
  let place ← files.locate p
  match files.contents.lookup place with
  | some bytes => return bytes
  | none => throw (if files.isDirectory place then .directory else .missing)

/-- Gives a file a content. Its directory has to be there. -/
def write (files : Files) (p : Path) (bytes : List UInt8) : Except FileFault Files := do
  let place ← files.locate p
  if files.isDirectory place then throw .directory
  files.enter place.dropLast
  return { files with contents := (place, bytes) :: files.contents.filter (·.1 != place) }

end Files

end Screenplay
