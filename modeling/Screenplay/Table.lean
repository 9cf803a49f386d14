/-
Tables of texts, shown line by line: a title, the names of the columns, and the rows. Cells hold
markup; a cell may take several lines.
-/
import Screenplay.Text.Markup
import Screenplay.Text.Search

namespace Screenplay

/-- A table. -/
structure Table where
  title : String
  columns : List String
  rows : List (List String)
deriving Repr, DecidableEq

namespace Table

/-- The distance between two stops of the tabulator. -/
def tabWidth : Nat := 8

/-- A line with blanks for its tabs; the first character stands in some column. -/
def expandTabs (column : Nat) : List Char → List Char
  | [] => []
  | c :: cs =>
    if c = '\t' then
      let width := tabWidth - column % tabWidth
      List.replicate width ' ' ++ expandTabs (column + width) cs
    else c :: expandTabs (column + 1) cs

/-- The lines that a cell shows. -/
def cellLines (cell : String) : Except Text.Markup.Unmatched (List String) := do
  let shown ← Text.Markup.plain cell
  return (Text.cutAt '\n' shown.toList).map fun line =>
    String.ofList (Text.trim (expandTabs 0 line))

/-- The lines of a row whose cells show some lines each. -/
def rowLines (cells : List (List String)) : List String :=
  let height := cells.foldl (fun height lines => max height lines.length) 0
  (List.range height).map fun i => Text.join " | " (cells.map (·.getD i ""))

/-- The lines of a table. -/
def lines (t : Table) : Except Text.Markup.Unmatched (List String) := do
  let rows ← t.rows.mapM (·.mapM cellLines)
  return t.title :: Text.join " | " t.columns :: rows.flatMap rowLines

end Table

end Screenplay
