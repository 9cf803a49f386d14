/-
The words of a command line: options for all commands, the name of a command, its options, and the
file that it works on. An option has a long name, most have a letter too, and all but one take a
value; of an option given twice the last value counts. After two hyphens everything is a file.
-/
import Screenplay.Text.Search

namespace Screenplay

/-! ## Commands and options -/

/-- What can be done with a source file. -/
inductive Command where
  | compile
  | parse
  | validate
  | analyze
  | run
deriving Repr, DecidableEq, Inhabited

namespace Command

/-- All commands. -/
def all : List Command := [compile, parse, validate, analyze, run]

/-- The name of a command. -/
def name : Command → String
  | compile => "compile"
  | parse => "parse"
  | validate => "validate"
  | analyze => "analyze"
  | run => "run"

/-- The command with a name. -/
def ofName? (text : String) : Option Command := all.find? (·.name == text)

theorem ofName?_name (command : Command) : ofName? command.name = some command := by
  cases command <;> decide

end Command

/-- The options of commands. -/
inductive CommandOption where
  | level
  | format
  | manifest
  | output
  | screen
  | trace
  | help
deriving Repr, DecidableEq

namespace CommandOption

/-- The long name of an option. -/
def name : CommandOption → String
  | level => "--level"
  | format => "--format"
  | manifest => "--manifest"
  | output => "--output"
  | screen => "--screen"
  | trace => "--trace"
  | help => "--help"

/-- The letter of an option. -/
def letter? : CommandOption → Option Char
  | level => some 'l'
  | format => some 'f'
  | manifest => some 'm'
  | output => some 'o'
  | screen => some 's'
  | _ => none

/-- Whether an option takes a value. -/
def takesValue : CommandOption → Bool
  | trace | help => false
  | _ => true

end CommandOption

/-- The options of a command. -/
def Command.options : Command → List CommandOption
  | compile => [.output, .level, .manifest, .format, .help]
  | run => [.screen, .trace, .level, .manifest, .format, .help]
  | _ => [.level, .manifest, .format, .help]

/-! ## Arguments -/

/-- What is given to a command. -/
structure Arguments where
  /-- the source file -/
  source : Option String
  level : Option String
  format : Option String
  manifest : Option String
  /-- the file that an artifact is written to -/
  output : Option String
  /-- the screen that a run starts with -/
  screen : Option String
  /-- whether the events of a run are shown -/
  trace : Bool
deriving Repr, DecidableEq, Inhabited

namespace Arguments

/-- Nothing given. -/
def empty : Arguments := ⟨none, none, none, none, none, none, false⟩

/-- Gives a value to an option; one without a value is switched on. -/
def give (a : Arguments) (value : String) : CommandOption → Arguments
  | .level => { a with level := some value }
  | .format => { a with format := some value }
  | .manifest => { a with manifest := some value }
  | .output => { a with output := some value }
  | .screen => { a with screen := some value }
  | .trace => { a with trace := true }
  | .help => a

/-- Whether results are shown as documents. -/
def wantsDocument (a : Arguments) : Bool := a.format == some "json"

end Arguments

/-- What a command line asks for. -/
inductive Request where
  | help
  | version
  | command (logLevel : Option String) (command : Command) (arguments : Arguments)
deriving Repr, DecidableEq

/-- Why a command line cannot be understood. -/
inductive UsageError where
  | noCommand
  | unknownCommand (name : String)
  | unknownOption (name : String)
  | missingValue (name : String)
  | unexpectedValue (name : String)
  | secondFile (name : String)
deriving Repr, DecidableEq

/-- The wording of a usage error. -/
def UsageError.message : UsageError → String
  | noCommand => "Missing command."
  | unknownCommand name => s!"No such command '{name}'."
  | unknownOption name => s!"No such option: {name}"
  | missingValue name => s!"Option '{name}' requires an argument."
  | unexpectedValue name => s!"Option '{name}' does not take a value."
  | secondFile name => s!"Got unexpected extra argument ({name})"

/-! ## Reading -/

/-- A word that is split into an option and the value that comes with it. -/
structure OptionWord where
  option : CommandOption
  value : Option String
deriving Repr, DecidableEq

/-- The name before the first equals sign of a word, and the value after it. -/
def splitValue (word : List Char) : String × Option String :=
  let name := word.takeWhile (· != '=')
  (String.ofList name,
    match word.drop name.length with
    | _ :: value => some (String.ofList value)
    | [] => none)

/-- The option that a word of some length is: a long name, which may have a value after an equals
sign, or a letter, which may have a value right after it. -/
def optionWord (options : List CommandOption) (word : List Char) :
    Except UsageError OptionWord :=
  let (name, value) := splitValue word
  match options.find? (·.name == name) with
  | some option =>
    if option.takesValue || value.isNone then .ok ⟨option, value⟩
    else .error (.unexpectedValue name)
  | none =>
    match word with
    | '-' :: c :: rest =>
      match options.find? (·.letter? == some c) with
      | some option =>
        .ok ⟨option, if rest.isEmpty then none else some (String.ofList rest)⟩
      | none => .error (.unknownOption name)
    | _ => .error (.unknownOption name)

/-- Whether a word is meant as an option. -/
def isOptionWord (word : String) : Bool :=
  match word.toList with
  | '-' :: _ :: _ => true
  | _ => false

/-- Gives a command the file that it works on. -/
def giveFile (a : Arguments) (word : String) : Except UsageError Arguments :=
  if a.source.isSome then .error (.secondFile word) else .ok { a with source := some word }

/-- Reads the words after the name of a command. -/
def readArguments (options : List CommandOption) (a : Arguments) (helping : Bool) :
    List String → Except UsageError (Arguments × Bool)
  | [] => .ok (a, helping)
  | word :: words =>
    if word = "--" then (words.foldlM giveFile a).map fun a => (a, helping)
    else if isOptionWord word then
      match optionWord options word.toList with
      | .error e => .error e
      | .ok ⟨option, value⟩ =>
        let helping := helping || option = .help
        match value, words with
        | some value, words => readArguments options (a.give value option) helping words
        | none, words =>
          if option.takesValue then
            match words with
            | [] => .error (.missingValue option.name)
            | value :: words => readArguments options (a.give value option) helping words
          else readArguments options (a.give "" option) helping words
    else match giveFile a word with
      | .error e => .error e
      | .ok a => readArguments options a helping words

/-- Reads the name of a command and what is given to it. -/
def readCommand (logLevel : Option String) : List String → Except UsageError Request
  | [] => .error .noCommand
  | name :: words =>
    match Command.ofName? name with
    | none => .error (.unknownCommand name)
    | some command =>
      (readArguments command.options .empty false words).map fun (arguments, helping) =>
        if helping then .help else .command logLevel command arguments

/-- The option for the log level, which stands before the name of the command. -/
def logLevelName : String := "--log-level"

/-- Reads a command line. -/
def Request.read (logLevel : Option String) : List String → Except UsageError Request
  | [] => .error .noCommand
  | word :: words =>
    if word = "--" then readCommand logLevel words
    else if word = "--help" then .ok .help
    else if word = "--version" ∨ word = "-v" then .ok .version
    else if isOptionWord word then
      match splitValue word.toList, words with
      | (name, some value), words =>
        if name = logLevelName then Request.read (some value) words else .error (.unknownOption name)
      | (name, none), value :: words =>
        if name = logLevelName then Request.read (some value) words else .error (.unknownOption name)
      | (name, none), [] =>
        if name = logLevelName then .error (.missingValue name) else .error (.unknownOption name)
    else readCommand logLevel (word :: words)

end Screenplay
