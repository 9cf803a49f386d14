/-
From the settings of a manifest to the options of a compilation or of a run. A setting of another
type than the option is converted where that loses nothing: the usual words and the numbers zero and
one are truth values, a text that writes a whole number is one. If one setting cannot be converted,
there are no options.
-/
import Screenplay.Compile
import Screenplay.Manifest

namespace Screenplay

/-! ## Conversions -/

namespace Value

/-- A whole number that is one as it stands, or a fraction without decimals. -/
def wholeOfFloat? (x : Float) : Option Int :=
  if x.isFinite && x.floor == x && x.abs < 9223372036854775808 then some x.toInt64.toInt else none

/-- A text without a point and zeros at its end. -/
def dropZeros (text : List Char) : List Char :=
  match (text.reverse.dropWhile (· == '0')) with
  | '.' :: whole => whole.reverse
  | _ => text

/-- The whole number that a text writes, in ASCII digits. -/
def wholeOfText? (text : List Char) : Option Int :=
  let body := Text.trimNumber text
  if body.all (·.toNat < 128) then wholeNumber? (dropZeros body) else none

/-- The whole number that a value stands for. -/
def asWhole? : Value → Option Int
  | .int n => some n
  | .bool b => some (if b then 1 else 0)
  | .float x => wholeOfFloat? x
  | .text s => wholeOfText? s.toList
  | _ => none

/-- The words for truth values. -/
def flagWords : List (String × Bool) := [
  ("0", false), ("off", false), ("f", false), ("false", false), ("n", false), ("no", false),
  ("1", true), ("on", true), ("t", true), ("true", true), ("y", true), ("yes", true)]

/-- The truth value that a whole number stands for. -/
def flagOfWhole? (n : Int) : Option Bool :=
  if n = 0 then some false else if n = 1 then some true else none

/-- The truth value that a value stands for. -/
def asFlag? : Value → Option Bool
  | .bool b => some b
  | .int n => flagOfWhole? n
  | .float x => (wholeOfFloat? x).bind flagOfWhole?
  | .text s => flagWords.lookup s.toLower
  | _ => none

/-- The text that a value is. -/
def asText? : Value → Option String
  | .text s => some s
  | _ => none

end Value

/-! ## Options -/

/-- The options of a compilation. -/
def CompilerSettings.options? (c : CompilerSettings) : Option CompileOptions := do
  return {
    debug := ← c.debug.asFlag?
    optimize := ← c.optimize.asFlag?
    target := ← c.target.asText?
    metadata := ← c.metadata.asFlag? }

/-- The options of a run at some level. -/
def RunSettings.options? (r : RunSettings) (level : Level) : Option RunOptions := do
  return { RunOptions.default with
    level
    maxSeconds := r.maxSeconds
    maxMemory := ← r.maxMemory.asWhole?
    debug := ← r.debug.asFlag?
    maxHistory := ← r.maxHistory.asWhole?
    maxEvents := ← r.maxEvents.asWhole? }

/-- Whether a value says nothing: null, zero, and everything empty. -/
def Value.isVoid : Value → Bool
  | .null => true
  | .bool b => !b
  | .int n => n == 0
  | .float x => x == 0
  | .text s => s.isEmpty
  | .list items => items.isEmpty
  | .map entries => entries.isEmpty

/-- The screen that a run starts with, unless it is the start screen of the program. -/
def RunSettings.entryScreen? (r : RunSettings) : Option String :=
  if r.entry.isVoid then none else some r.entry.display

end Screenplay
