/-
Locations of errors: a file, a line and a column, with the source lines that the location shows.
-/
import Screenplay.Text.Search

namespace Screenplay

/-- Where an error was found. The excerpt, if there is one, starts at the error's line. -/
structure Location where
  file : Option String
  line : Int
  column : Int
  excerpt : Option String
deriving Repr, DecidableEq

namespace Location

/-- A text moved to the right end of a field. -/
def alignRight (width : Nat) (text : String) : String :=
  String.ofList (List.replicate (width - text.length) ' ') ++ text

/-- A numbered source line. -/
def numbered (line : Int) (text : String) : String :=
  alignRight 4 (toString line) ++ " | " ++ text

/-- The line under the excerpt's first line that points at a column. -/
def pointer (line column : Int) : String :=
  let margin : Int := (alignRight 4 (toString line)).length + 3
  String.ofList (List.replicate (margin + column - 1).toNat ' ') ++ "^^^"

/-- The numbered lines of an excerpt, with a pointer under the first one. -/
def showExcerpt (line column : Int) (excerpt : String) : String :=
  match (Text.cutAt '\n' excerpt.toList).map String.ofList with
  | [] => ""
  | first :: later =>
    let rest := later.mapIdx fun i text => numbered (line + 1 + i) text
    Text.join "\n" (numbered line first :: pointer line column :: rest)

/-- The file, line and column. -/
def place (l : Location) : String :=
  match l.file with
  | some file => s!"{file}:{l.line}:{l.column}"
  | none => s!"line {l.line}, column {l.column}"

/-- The place, followed by the excerpt unless that is empty. -/
def format (l : Location) : String :=
  match l.excerpt with
  | some excerpt =>
    if excerpt.isEmpty then l.place
    else l.place ++ "\n" ++ showExcerpt l.line l.column excerpt
  | none => l.place

/-- A message under its location. -/
def explain (l : Location) (message : String) : String := l.format ++ "\n" ++ message

/-- A message of a kind with its line, on one line. -/
def summary (l : Location) (kind message : String) : String :=
  s!"Parse error ({kind}): {message}" ++ if l.line = 0 then "" else s!" at line {l.line}"

end Location

end Screenplay
