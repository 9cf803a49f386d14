/-
The parser of state values: literals, lists, maps, and names, which stand for the value of a
variable in scope or else for themselves.
-/
import Screenplay.Expr.Parser
import Screenplay.Program

namespace Screenplay.Value

open Screenplay.Parse

/-- The value that a name stands for. -/
def ofName (scope : List StateVar) (name : String) : Value :=
  match scope.find? (·.name == name) with
  | some v => v.value
  | none => .text name

/-- Adds one item to a list, whose length is bounded. -/
def addItem (item : Parse Value) (items : List Value) : Parse (List Value) := do
  let items ← adding item items
  check [.limit "array value length" items.length maxItems]
  return items

/-- Puts one entry into a map, whose size is bounded. -/
def addEntry (item : Parse Value) (entries : Entries Value) : Parse (Entries Value) := do
  let key ← name "map key"
  expectSymbol ":"
  let entries := entries.put key (← item)
  check [.limit "map value entries" entries.length maxMapEntries]
  return entries

/-- Parses a value that is a word. -/
def parseWord (scope : List StateVar) (token : Token) : Parse Value := do
  discard advance
  if token.value = "true" ∨ token.value = "false" then return .bool (token.value = "true")
  match ← number? token with
  | some number => return ofNumber number
  | none => return ofName scope token.value

/-- Parses a value with at most some levels of nesting. -/
def parse (scope : List StateVar) : Nat → Parse Value
  | 0 => tooDeep
  | depth + 1 => do
    let token ← current
    if token.kind = .string then
      discard advance
      return .text token.value
    if ← skipSymbol "[" then
      let items ← itemsBetweenCommas "]" (addItem (parse scope depth)) []
      expectSymbol "]"
      return .list items
    if ← skipSymbol "\x7b" then
      let entries ← itemsBetweenCommas "\x7d" (addEntry (parse scope depth)) []
      expectSymbol "\x7d"
      return .map entries
    if token.kind = .word then parseWord scope token else fail (.expected "value")

end Screenplay.Value
