/-
Paths of files: a root, which only absolute paths have, and the names of the directories that lead
from there to the file. Empty names and names of a single point say nothing and are left out; a name
of two points, which leads back, is kept until a path is resolved.
-/
import Screenplay.Text.Search

namespace Screenplay

/-- A path. -/
structure Path where
  /-- one slash or two for an absolute path, empty for a relative one -/
  root : String
  parts : List String
deriving Repr, DecidableEq, Inhabited

namespace Path

/-! ## Texts -/

/-- The root of a path that starts with some slashes. -/
def rootOf (slashes : Nat) : String :=
  if slashes = 0 then "" else if slashes = 2 then "//" else "/"

/-- The path that a text writes. -/
def ofString (text : String) : Path :=
  { root := rootOf (text.toList.takeWhile (· == '/')).length
    parts := ((Text.cutAt '/' text.toList).map String.ofList).filter fun p => p != "" && p != "." }

/-- The text of a path. -/
def toString (p : Path) : String :=
  if p.root = "" ∧ p.parts = [] then "." else p.root ++ Text.join "/" p.parts

instance : ToString Path := ⟨Path.toString⟩

/-! ## Parts -/

/-- The last name of a path. -/
def name (p : Path) : String := p.parts.getLastD ""

/-- The path without its last name. -/
def parent (p : Path) : Path := { p with parts := p.parts.dropLast }

/-! ## Places -/

/-- A path as it is seen from a directory. -/
def join (directory p : Path) : Path :=
  if p.root = "" then ⟨directory.root, directory.parts ++ p.parts⟩ else p

/-- Goes on to a name; two points lead back. -/
def step (parts : List String) (part : String) : List String :=
  if part = ".." then parts.dropLast else parts ++ [part]

/-- The absolute path without names that lead back. -/
def resolve (directory p : Path) : Path :=
  let absolute := directory.join p
  { absolute with parts := absolute.parts.foldl step [] }

end Path

end Screenplay
