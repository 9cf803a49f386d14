/-
Artifacts: the JSON text that a program is compiled to, with its size and its checksum.
-/
import Screenplay.Checksum
import Screenplay.Names
import Screenplay.Program.Document

namespace Screenplay

/-- What an artifact holds besides the program, and how it is written. -/
structure ArtifactForm where
  /-- whether the text is on one line -/
  compact : Bool
  /-- the platform that the artifact is meant for -/
  target : String
  /-- whether permissions and entry points are listed -/
  metadata : Bool
deriving Repr, DecidableEq

namespace Artifact

/-- The document of an artifact. -/
def document (form : ArtifactForm) (p : Program) (permissions : Names) : Json :=
  let metadata := if form.metadata then
    [("permissions", .ofTexts permissions), ("entry_points", .ofTexts p.screenNames)] else []
  .object ([("target", .text form.target), ("program", p.document)] ++ metadata)

/-- The text of an artifact. Its entries are sorted, and it is plain ASCII. -/
def text (form : ArtifactForm) (p : Program) (permissions : Names) : String :=
  (document form p permissions).render (if form.compact then .compact else .pretty)

/-- The checksum of the text of an artifact. -/
def checksum (text : String) : String := Sha256.hexDigest text.toUTF8.toList

end Artifact

end Screenplay
