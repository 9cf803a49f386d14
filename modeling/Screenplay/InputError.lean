/-
Errors of the input around a program: sources that are no text, unknown names of levels and risks,
numbers out of range and unusable settings.
-/
import Screenplay.Level
import Screenplay.Text.Quoted
import Screenplay.Text.Search

namespace Screenplay

/-- What is wrong with an input. -/
inductive InputError where
  | noSource
  /-- a source of a type that holds no text -/
  | notText (type : String)
  /-- bytes that are no UTF-8 text, with the reason and the offset of the first bad byte -/
  | notUtf8 (reason : String) (offset : Nat)
  | unknownLevel (name : String)
  | unknownRisk (name : String)
  /-- a level in a manifest or on the command line -/
  | unknownSetting (name : String)
  /-- a whole number with too many digits -/
  | longNumber (digits : Nat)
  | negativeHistory
  /-- a text where a manifest needs a number -/
  | notNumber (text : String)
deriving Repr, DecidableEq

namespace InputError

/-- The wording of an input error. -/
def message : InputError → String
  | noSource => "Source is null"
  | notText type => s!"Source must be str or bytes, not {type}"
  | notUtf8 reason offset => s!"Source is not valid UTF-8: {reason} at byte {offset}"
  | unknownLevel name => Text.quoted name ++ " is not a valid SecurityLevel"
  | unknownRisk name => Text.quoted name ++ " is not a valid RiskLevel"
  | unknownSetting name =>
    let allowed := Text.join ", " (Level.all.map Level.name)
    s!"Unknown security_level '{name}' (expected one of: {allowed})"
  | longNumber digits =>
    s!"Exceeds the limit (4300 digits) for integer string conversion: value has {digits} digits; "
      ++ "use sys.set_int_max_str_digits() to increase the limit"
  | negativeHistory => "maxlen must be non-negative"
  | notNumber text => "could not convert string to float: " ++ Text.quoted text

end InputError

end Screenplay
