/-
The command line: a request is read from its words, and a command is held as a session in a world.
-/
import Screenplay.CommandLine.Commands

namespace Screenplay.CommandLine

open Screenplay

variable {m : Type → Type} [Monad m]

/-! ## Help -/

/-- What each command does. -/
def purpose : Command → String
  | .compile => "build an artifact"
  | .parse => "print the program tree"
  | .validate => "parse, resolve and analyze"
  | .analyze => "print the security report"
  | .run => "execute in the sandboxed runtime"

/-- The line that tells about a command. -/
def describe (c : Command) : String :=
  let options := Text.join ", " (c.options.map CommandOption.name)
  s!"  {c.name}: {purpose c} ({options})"

/-- The lines that tell how the command line is used. -/
def usage : List String :=
  ["Usage: sprout [--log-level LEVEL] COMMAND [OPTIONS] [SOURCE]", "", "Commands:"]
    ++ Command.all.map describe

/-- The lines that tell the version. -/
def versionLines : List String :=
  [s!"Sprout {version}", "", "Security levels:"] ++ Level.all.map fun level => s!"  - {level.name}"

/-! ## Requests -/

/-- The session of a command. -/
def perform (a : Arguments) (manifest : Manifest) : Command → Session m Unit
  | .compile => Session.compile a manifest
  | .parse => Session.parse a manifest
  | .validate => Session.validate a manifest
  | .analyze => Session.analyze a manifest
  | .run => Session.run a manifest

/-- The session of a request. -/
def answer : Request → Session m Unit
  | .help => usage.forM Session.say
  | .version => versionLines.forM Session.say
  | .command logLevel command a => do
    let manifest ← Session.loadManifest logLevel a
    perform a manifest command

/-- The session of a command line. One that cannot be understood ends with the code two. -/
def session (args : List String) : Session m Unit := do
  let preset := (← read).logLevel.filter (· != "")
  match Request.read preset args with
  | .ok request => answer request
  | .error e =>
    Session.complain s!"Error: {e.message}"
    Session.exit 2

/-- Runs a command line in a world. -/
def run (world : World m) (args : List String) : m Outcome := (session args).hold world

end Screenplay.CommandLine
