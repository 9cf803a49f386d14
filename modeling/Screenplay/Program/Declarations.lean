/-
The parsers of declarations: state variables, imports and data models.
-/
import Screenplay.Value.Parser

namespace Screenplay

open Parse

/-! ## State -/

/-- Parses a state variable, with the variables that its value may copy. Its type, if written, is
only a note. -/
def StateVar.parse (scope : List StateVar) : Parse StateVar := do
  let name := (← word "state variable name").value
  check (Check.stateName name)
  if ← skipSymbol ":" then discard (word "type name")
  expectSymbol "="
  let value ← Value.parse scope maxDepth
  check (Check.state name value)
  modify fun s => { s with declared := s.declared + 1 }
  check [Check.stateCount (← get).declared]
  return ⟨name, value⟩

/-- Parses a state declaration, of one variable or of a group between braces, and adds it to the
state declared before. `outer` is the state around that. -/
def StateVar.parseGroup (outer declared : List StateVar) : Parse (List StateVar) := do
  discard (expectWord "state")
  if ← skipSymbol "\x7b" then
    let declared ← itemsUntil "\x7d" (fun declared =>
      adding (beforeEnding (StateVar.parse (outer ++ declared))) declared) declared
    expectSymbol "\x7d"
    return declared
  else adding (StateVar.parse (outer ++ declared)) declared

/-! ## Imports and data models -/

/-- Parses an import. -/
def parseImport : Parse String := do
  discard (expectWord "import")
  let path ← name "import path"
  check (Check.string path "import path")
  return path

/-- Parses a field of a data model; a comma may follow it. -/
def DataField.parse : Parse DataField := do
  let name := (← word "field name").value
  check (Check.stateName name)
  expectSymbol ":"
  let typeName := (← word "field type").value
  let default ← if ← skipSymbol "=" then
      let value ← Value.parse [] maxDepth
      check (Check.value s!"field '{name}'" 0 value)
      pure value
    else pure .null
  discard (skipSymbol ",")
  return ⟨name, typeName, default⟩

/-- Parses a data model. -/
def DataModel.parse : Parse DataModel := do
  discard (expectWord "data")
  let name := (← word "data model name").value
  check [.text name "data model name"]
  expectSymbol "\x7b"
  let fields ← itemsUntil "\x7d" (adding DataField.parse) []
  expectSymbol "\x7d"
  return ⟨name, fields⟩

end Screenplay
