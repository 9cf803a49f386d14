/-
Lines of a text: the index of line starts, the one-based line and column of an offset, and the text
of a line.
-/
namespace Screenplay.Text

/-- A place in a text: line and column, both counted from one. -/
structure Position where
  line : Nat
  column : Nat
deriving Repr, DecidableEq, Inhabited

namespace Position

/-- The start of every text. -/
def first : Position := ⟨1, 1⟩

/-- The place after one character. -/
def next (p : Position) (c : Char) : Position :=
  if c = '\n' then ⟨p.line + 1, 1⟩ else ⟨p.line, p.column + 1⟩

/-- The place after some characters. -/
def after (p : Position) (cs : List Char) : Position := cs.foldl next p

end Position

/-! ## Line breaks -/

/-- A text in which every line break is one character: a carriage return, alone or before a line
feed, becomes a line feed. -/
def unifyBreaks : List Char → List Char
  | [] => []
  | '\r' :: '\n' :: cs => '\n' :: unifyBreaks cs
  | '\r' :: cs => '\n' :: unifyBreaks cs
  | c :: cs => c :: unifyBreaks cs

/-! ## The index -/

/-- The offsets at which the lines after the first start, in a text that itself starts at
`offset`. -/
def laterStarts (offset : Nat) : List Char → List Nat
  | [] => []
  | c :: cs =>
    if c = '\n' then (offset + 1) :: laterStarts (offset + 1) cs else laterStarts (offset + 1) cs

/-- The number of entries of an increasing list that a bound reaches, found by halving the stretch from
`low` to `high`: the bound reaches the entries before it, and none after it. -/
def bisect (entries : List Nat) (bound low high : Nat) : Nat :=
  if low < high then
    let middle := (low + high) / 2
    if bound < entries.getD middle 0 then bisect entries bound low middle
    else bisect entries bound (middle + 1) high
  else low
termination_by high - low

/-- A text together with the offsets of its line starts, in increasing order. -/
structure LineIndex where
  text : List Char
  starts : List Nat
deriving Repr, DecidableEq

namespace LineIndex

/-- The line index of a text. -/
def ofText (text : List Char) : LineIndex := ⟨text, 0 :: laterStarts 0 text⟩

/-- The line of an offset: the number of lines that start at or before it. -/
def lineOf (index : LineIndex) (offset : Nat) : Nat :=
  bisect index.starts offset 0 index.starts.length

/-- The line and column of an offset. -/
def position (index : LineIndex) (offset : Nat) : Position :=
  let line := index.lineOf offset
  ⟨line, offset - index.starts.getD (line - 1) 0 + 1⟩

/-- The text of a line, without its line break; empty past the last line. -/
def lineText (index : LineIndex) (line : Nat) : List Char :=
  match index.starts[line - 1]? with
  | some start => (index.text.drop start).takeWhile (· ≠ '\n')
  | none => []

end LineIndex

end Screenplay.Text
