/-
Settings: named values in nested tables. A table is declared once, by its section header or by the
first key that opens it; a value is given once; nothing can be added to a list. `Draft` is what is
known in the middle of a file, and its operations refuse whatever breaks these rules.
-/
import Screenplay.Entries
import Screenplay.Text.Lines
import Screenplay.Text.Quoted
import Screenplay.Value

namespace Screenplay

/-- The names that lead from the outermost table to a table or a value. -/
abbrev Settings.Key := List String

open Settings (Key)

/-! ## Errors -/

/-- What is wrong at some place of a file. -/
inductive SettingsProblem where
  /-- a line that starts like no statement -/
  | statement
  | keyStart
  | missingEquals
  | missingBracket
  /-- more after a statement than a comment -/
  | missingLineEnd
  /-- a section that there is already -/
  | declaredTwice (key : Key)
  /-- a key below a list -/
  | immutable (key : Key)
  /-- a key that opens a table of another section -/
  | redefined (key : Key)
  /-- a key that has a value already, or that goes below one -/
  | overwritten
  | unclosedList
  | unclosedString
  | missingQuote
  | badEscape
  | badHex
  /-- an escape of a code point that is no character -/
  | badScalar
  /-- a control character in a string with escapes -/
  | illegal (c : Char)
  /-- a control character in a comment or in a string without escapes -/
  | invalid (c : Char)
  | badValue
deriving Repr, DecidableEq

/-- A key as it is shown in errors. -/
def Settings.showKey : Key → String
  | [name] => "(" ++ Text.quoted name ++ ",)"
  | key => "(" ++ Text.join ", " (key.map Text.quoted) ++ ")"

/-- The wording of a problem. -/
def SettingsProblem.message : SettingsProblem → String
  | statement => "Invalid statement"
  | keyStart => "Invalid initial character for a key part"
  | missingEquals => "Expected '=' after a key in a key/value pair"
  | missingBracket => "Expected ']' at the end of a table declaration"
  | missingLineEnd => "Expected newline or end of document after a statement"
  | declaredTwice key => s!"Cannot declare {Settings.showKey key} twice"
  | immutable key => s!"Cannot mutate immutable namespace {Settings.showKey key}"
  | redefined key => s!"Cannot redefine namespace {Settings.showKey key}"
  | overwritten => "Cannot overwrite a value"
  | unclosedList => "Unclosed array"
  | unclosedString => "Unterminated string"
  | missingQuote => "Expected " ++ Text.quoted "'"
  | badEscape => "Unescaped '\\' in a string"
  | badHex => "Invalid hex value"
  | badScalar => "Escaped character is not a Unicode scalar value"
  | illegal c => "Illegal character " ++ Text.quoted c.toString
  | invalid c => "Found invalid character " ++ Text.quoted c.toString
  | badValue => "Invalid value"

/-- Why a file gives no settings. -/
inductive SettingsError where
  /-- a problem at some place; without a place, at the end of the file -/
  | problem (problem : SettingsProblem) (place : Option Text.Position)
  /-- a whole number with too many digits -/
  | longNumber (digits : Nat)
deriving Repr, DecidableEq

/-- The wording of a place. -/
def Settings.showPlace : Option Text.Position → String
  | some p => s!"line {p.line}, column {p.column}"
  | none => "end of document"

/-! ## Tables -/

namespace Settings

/-- Changes the table that a key leads to. Tables on the way that are not there are made; a value on
the way that is no table makes the change impossible. -/
def within (change : Entries Value → Option (Entries Value)) : Key → Entries Value →
    Option (Entries Value)
  | [], table => change table
  | name :: key, table =>
    match table.get? name with
    | none => (within change key []).map fun inner => table.put name (.map inner)
    | some (.map inner) => (within change key inner).map fun inner => table.put name (.map inner)
    | some _ => none

/-- A table with a value put in under a new name. -/
def add (name : String) (value : Value) (table : Entries Value) : Option (Entries Value) :=
  if table.has name then none else some (table.put name value)

end Settings

/-! ## Drafts -/

/-- The settings read so far. -/
structure Settings.Draft where
  table : Entries Value
  /-- the section that keys belong to -/
  header : Key
  /-- the tables that can be neither declared nor opened by a key any more -/
  declared : List Key
  /-- the tables that keys of this section opened -/
  opened : List Key
  /-- the lists -/
  lists : List Key

namespace Settings.Draft

/-- Nothing read yet. -/
def empty : Draft := ⟨[], [], [], [], []⟩

/-- Whether a key is that of a list or leads through one. -/
def belowList (d : Draft) (key : Key) : Bool := d.lists.any fun list => list.isPrefixOf key

/-- Ends the section, and starts the one with a key. -/
def declare (d : Draft) (key : Key) : Except SettingsProblem Draft :=
  let declared := d.opened ++ d.declared
  if declared.contains key || d.belowList key then .error (.declaredTwice key)
  else match within some key d.table with
    | none => .error .overwritten
    | some table =>
      .ok { d with table, header := key, declared := key :: declared, opened := [] }

/-- Opens the tables that some names in the section lead through. -/
def openTables (d : Draft) (path : Key) : Except SettingsProblem Draft :=
  let tables := (List.range path.length).map fun i => d.header ++ path.take (i + 1)
  match tables.find? d.declared.contains with
  | some table => .error (.redefined table)
  | none => .ok { d with opened := tables ++ d.opened }

/-- Gives a value to a key of the section: to a name in the table that some more names lead to. -/
def assign (d : Draft) (path : Key) (name : String) (value : Value) :
    Except SettingsProblem Draft := do
  let d ← d.openTables path
  let parent := d.header ++ path
  if d.belowList parent then throw (.immutable parent)
  match within (add name value) parent d.table with
  | none => throw .overwritten
  | some table =>
    let lists := match value with
      | .list _ => (parent ++ [name]) :: d.lists
      | _ => d.lists
    return { d with table, lists }

end Settings.Draft

end Screenplay
