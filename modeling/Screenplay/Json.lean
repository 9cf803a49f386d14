/-
JSON documents and their texts: compact or indented, with the entries of objects as given or sorted,
and with characters outside ASCII kept or escaped.
-/
import Screenplay.Text.Quoted
import Screenplay.Value

namespace Screenplay

/-- A JSON document. Numbers are whole numbers or floating point numbers. -/
inductive Json where
  | null
  | bool (b : Bool)
  | int (n : Int)
  | float (x : Float)
  | text (s : String)
  | list (items : List Json)
  | object (entries : List (String × Json))
deriving Inhabited

namespace Json

/-- A list of texts. -/
def ofTexts (texts : List String) : Json := list (texts.map text)

/-- An optional text, null if it is absent. -/
def ofText? : Option String → Json
  | some s => text s
  | none => null

mutual

/-- A state value as a document. -/
def ofValue : Value → Json
  | .null => null
  | .bool b => bool b
  | .int n => int n
  | .float x => float x
  | .text s => text s
  | .list items => list (ofValues items)
  | .map entries => object (ofEntries entries)

/-- Some state values as documents. -/
def ofValues : List Value → List Json
  | [] => []
  | v :: vs => ofValue v :: ofValues vs

/-- The entries of a map value as documents. -/
def ofEntries : List (String × Value) → List (String × Json)
  | [] => []
  | (k, v) :: es => (k, ofValue v) :: ofEntries es

end

/-! ## Scalars -/

/-- A UTF-16 code unit as an escape. -/
def unitEscape (n : Nat) : List Char := '\\' :: 'u' :: Text.hex 4 n

/-- A character as one or two UTF-16 escapes. -/
def charEscape (c : Char) : List Char :=
  if c.toNat < 0x10000 then unitEscape c.toNat
  else
    let n := c.toNat - 0x10000
    unitEscape (0xd800 + n / 0x400) ++ unitEscape (0xdc00 + n % 0x400)

/-- A character inside a text. With `ascii`, everything without a visible ASCII form is escaped,
otherwise only the controls. -/
def escaped (ascii : Bool) (c : Char) : List Char :=
  if c = '"' ∨ c = '\\' then ['\\', c]
  else if c = '\n' then ['\\', 'n']
  else if c = '\r' then ['\\', 'r']
  else if c = '\t' then ['\\', 't']
  else if c = '\x08' then ['\\', 'b']
  else if c = '\x0c' then ['\\', 'f']
  else if c.toNat < 32 ∨ (ascii ∧ 127 ≤ c.toNat) then charEscape c
  else [c]

/-- A text between quotation marks. -/
def quoted (ascii : Bool) (s : String) : List Char :=
  '"' :: s.toList.flatMap (escaped ascii) ++ ['"']

/-- A floating point number; the infinities and the undefined number have names. -/
def floatChars (x : Float) : List Char :=
  if x.isNaN then "NaN".toList
  else if x.isInf then (if 0 < x then "Infinity" else "-Infinity").toList
  else (Decimal.text Value.floatStyle x).toList

/-! ## Layout -/

/-- How documents are written. -/
structure Style where
  /-- blanks per level of indentation; without indentation everything is on one line -/
  indent : Option Nat
  /-- whether the entries of objects are sorted by their keys -/
  sorted : Bool
  /-- whether characters outside ASCII are escaped -/
  ascii : Bool
deriving Repr, DecidableEq

/-- On one line and sorted, in ASCII. -/
def Style.compact : Style := ⟨none, true, true⟩

/-- Indented and sorted, in ASCII. -/
def Style.pretty : Style := ⟨some 2, true, true⟩

/-- Entries with one more entry, put before the first one with a larger key. -/
def insertEntry {α : Type} (entry : String × α) : List (String × α) → List (String × α)
  | [] => [entry]
  | e :: es => if entry.1 ≤ e.1 then entry :: e :: es else e :: insertEntry entry es

/-- Entries in the order of their keys. -/
def sortEntries {α : Type} (entries : List (String × α)) : List (String × α) :=
  entries.foldr insertEntry []

/-- The line break before an item at some depth. -/
def lineBreak (style : Style) (depth : Nat) : List Char :=
  match style.indent with
  | some width => '\n' :: List.replicate (width * depth) ' '
  | none => []

/-- Items between brackets, at some depth. -/
def bracketed (style : Style) (depth : Nat) (opening closing : Char) :
    List (List Char) → List Char
  | [] => [opening, closing]
  | item :: items =>
    opening :: lineBreak style (depth + 1) ++ item
      ++ items.flatMap (fun item => ',' :: lineBreak style (depth + 1) ++ item)
      ++ lineBreak style depth ++ [closing]

/-- An entry of an object, its value already written. -/
def entryChars (style : Style) (entry : String × List Char) : List Char :=
  quoted style.ascii entry.1 ++ ':' :: (if style.indent.isSome then [' '] else []) ++ entry.2

mutual

/-- A document at some depth. -/
def chars (style : Style) (depth : Nat) : Json → List Char
  | null => "null".toList
  | bool b => (Value.boolText b).toList
  | int n => (toString n).toList
  | float x => floatChars x
  | text s => quoted style.ascii s
  | list items => bracketed style depth '[' ']' (itemChars style (depth + 1) items)
  | object entries =>
    let written := valueChars style (depth + 1) entries
    let ordered := if style.sorted then sortEntries written else written
    bracketed style depth '{' '}' (ordered.map (entryChars style))

/-- The items of a list at some depth. -/
def itemChars (style : Style) (depth : Nat) : List Json → List (List Char)
  | [] => []
  | j :: js => chars style depth j :: itemChars style depth js

/-- The entries of an object at some depth, their values written. -/
def valueChars (style : Style) (depth : Nat) : List (String × Json) → List (String × List Char)
  | [] => []
  | (k, j) :: es => (k, chars style depth j) :: valueChars style depth es

end

/-- The text of a document. -/
def render (style : Style) (j : Json) : String := String.ofList (j.chars style 0)

end Json

end Screenplay
