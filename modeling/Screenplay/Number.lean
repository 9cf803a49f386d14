/-
Numbers as texts: literals of whole numbers and of fractions, signed whole numbers with their usual
freedoms, and conversion to floating point.
-/
import Screenplay.Text.Blank
import Screenplay.Text.Digit

namespace Screenplay

open Screenplay.Text

/-! ## Floating point -/

/-- The whole numbers from this magnitude on round to no finite floating point number. -/
def floatLimit : Nat := Nat.pow 2 1024 - Nat.pow 2 970

/-- The floating point number nearest to a whole number, unless that is out of range. -/
def floatOfInt? (n : Int) : Option Float :=
  if n.natAbs < floatLimit then some (Float.ofInt n) else none

/-- The floating point number nearest to `± mantissa · 10 ^ exponent`. -/
def floatOfDecimal (negative : Bool) (mantissa : Nat) (exponent : Int) : Float :=
  let magnitude := Float.ofScientific mantissa (exponent < 0) exponent.natAbs
  if negative then -magnitude else magnitude

/-! ## Literals -/

/-- A number that a source text can write. -/
inductive Number where
  | whole (n : Int)
  | fraction (x : Float)

/-- The most digits a whole number may have to be read from a text or written to one. -/
def maxWholeDigits : Nat := 4300

/-- A whole number has too many digits. -/
structure Oversized where
  digits : Nat
deriving Repr, DecidableEq

/-- Drops a minus sign, and tells whether there was one. -/
def splitMinus : List Char → Bool × List Char
  | '-' :: cs => (true, cs)
  | cs => (false, cs)

/-- The whole number of a sign and some digits. -/
def wholeOf (negative : Bool) (digits : List Char) : Int :=
  if negative then -(number digits : Int) else number digits

/-- Reads a numeric literal: an optional minus sign, digits, and optionally a point and more digits;
a line break may follow. A text of another form is no number. -/
def Number.read? (text : List Char) : Except Oversized (Option Number) :=
  let (negative, body) := splitMinus text
  let (digits, rest) := body.span isDigit
  if digits.isEmpty then .ok none
  else match rest with
    | [] | ['\n'] =>
      if maxWholeDigits < digits.length then .error ⟨digits.length⟩
      else .ok (some (.whole (wholeOf negative digits)))
    | '.' :: tail =>
      let (decimals, rest) := tail.span isDigit
      if decimals.isEmpty ∨ (rest ≠ [] ∧ rest ≠ ['\n']) then .ok none
      else .ok (some (.fraction (floatOfDecimal negative (Text.number (digits ++ decimals))
        (-decimals.length))))
    | _ => .ok none

/-- Whether a text starts like a number: a digit, or a minus sign and a digit. -/
def looksNumeric (text : List Char) : Bool :=
  match (splitMinus text).2 with
  | c :: _ => isDigit c
  | [] => false

/-! ## Whole numbers -/

/-- Drops a sign, and tells whether it was a minus sign. -/
def splitSign : List Char → Bool × List Char
  | '-' :: cs => (true, cs)
  | '+' :: cs => (false, cs)
  | cs => (false, cs)

/-- Digits with single underscores between them, the underscores dropped. -/
def groupedDigits? : List Char → Option (List Char)
  | [] => none
  | [c] => if isDigit c then some [c] else none
  | c :: '_' :: cs => if isDigit c then (groupedDigits? cs).map (c :: ·) else none
  | c :: d :: cs => if isDigit c then (groupedDigits? (d :: cs)).map (c :: ·) else none

/-- Reads a whole number without white space: a sign and underscores between its digits are
allowed. -/
def wholeNumber? (text : List Char) : Option Int :=
  let (negative, body) := splitSign text
  match groupedDigits? body with
  | some digits => if digits.length ≤ maxWholeDigits then some (wholeOf negative digits) else none
  | none => none

/-! ## Decimals -/

/-- The place of the first digit above which, and below whose negative, every decimal is infinite or
zero. -/
def decimalReach : Int := 400

/-- The floating point number of a decimal of any size. -/
def floatOfWide (negative : Bool) (mantissa : Nat) (exponent : Int) : Float :=
  let place : Int := (Nat.toDigits 10 mantissa).length + exponent
  if mantissa = 0 ∨ place < -decimalReach then floatOfDecimal negative 0 0
  else if decimalReach < place then floatOfDecimal negative 1 decimalReach
  else floatOfDecimal negative mantissa exponent

/-- A run of digits at the start of a text, with single underscores between them, and the rest. No
digits at all are such a run too. -/
def splitDigits? (text : List Char) : Option (List Char × List Char) :=
  let (run, rest) := text.span fun c => isDigit c || c == '_'
  if run.isEmpty then some ([], rest) else (groupedDigits? run).map (·, rest)

/-- The exponent that ends a decimal: none, or a letter `e` and a whole number. -/
def exponent? : List Char → Option Int
  | [] => some 0
  | c :: cs =>
    let (negative, body) := splitSign cs
    if c ≠ 'e' ∧ c ≠ 'E' then none
    else match splitDigits? body with
      | some (d :: ds, []) => some (wholeOf negative (d :: ds))
      | _ => none

/-- Reads a decimal without a sign: digits, a point and more digits, and an exponent. -/
def unsigned? (negative : Bool) (body : List Char) : Option Float := do
  let (digits, rest) ← splitDigits? body
  let (decimals, rest) ← match rest with
    | '.' :: rest => splitDigits? rest
    | rest => some ([], rest)
  if digits.isEmpty && decimals.isEmpty then none
  let exponent ← exponent? rest
  return floatOfWide negative (Text.number (digits ++ decimals)) (exponent - decimals.length)

/-- Reads a floating point number: white space around it, a sign, underscores between digits, an
exponent, and the names of the infinities and of the undefined number are allowed. -/
def decimal? (text : List Char) : Option Float :=
  let (negative, body) := splitSign (trimNumber text)
  match String.ofList (body.map Char.toLower) with
  | "inf" | "infinity" => some (floatOfDecimal negative 1 decimalReach)
  | "nan" => some (0.0 / 0.0)
  | _ => unsigned? negative body

end Screenplay
