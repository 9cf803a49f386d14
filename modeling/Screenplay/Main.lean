/-
The program: a session of the command line on the files of the machine.
-/
import Screenplay.CommandLine

namespace Screenplay.Machine

open Screenplay

/-- What is wrong with a file that the machine refuses. -/
def faultOf : IO.Error → FileFault
  | .noFileOrDirectory .. | .noSuchThing .. => .missing
  | .inappropriateType _ code _ => if code = 21 then .directory else .notDirectory
  | e => .other (toString e)

/-- An action on a file, with its fault as a value. -/
def attempt {α : Type} (action : IO α) : IO (Except FileFault α) := do
  match ← action.toBaseIO with
  | .ok a => return .ok a
  | .error e => return .error (faultOf e)

/-- A number of nanoseconds in milliseconds, with one decimal. -/
def milliseconds (nanoseconds : Nat) : String :=
  let tenths := nanoseconds / 100000
  s!"{tenths / 10}.{tenths % 10}"

/-- The files, the environment and the clock of the machine. -/
def world : IO (World IO) := do
  let start ← IO.monoNanosNow
  return {
    directory := .ofString (← IO.currentDir).toString
    logLevel := ← IO.getEnv "SPROUT_LOG_LEVEL"
    read := fun p => attempt (return (← IO.FS.readBinFile p.toString).toList)
    write := fun p bytes => attempt (IO.FS.writeBinFile p.toString ⟨bytes.toArray⟩)
    elapsed := return milliseconds ((← IO.monoNanosNow) - start) }

end Screenplay.Machine

/-- Runs the command line that the program is given. -/
def main (args : List String) : IO UInt32 := do
  let outcome ← Screenplay.CommandLine.run (← Screenplay.Machine.world) args
  IO.print outcome.outputText
  IO.eprint outcome.errorText
  if let some crash := outcome.crash then IO.eprintln s!"Error: {crash.message}"
  return outcome.code.toUInt32
