/-
The parser of settings files: lines that give a value to a key, lines that declare a section, and
comments. Keys are dotted; values are strings on one line, numbers, truth values and lists. Whatever
is read leaves a shorter text over, so that the parser ends.
-/
import Screenplay.Settings

namespace Screenplay.Settings

/-! ## Readings -/

/-- Why reading ended early: a problem with the text left at that point, or a number that is too
long. -/
inductive Fault where
  | problem (problem : SettingsProblem) (rest : List Char)
  | longNumber (digits : Nat)
deriving Repr, DecidableEq

/-- What is read at the start of a text, and the shorter text left over. -/
structure Reading (α : Type) (text : List Char) where
  value : α
  rest : List Char
  shorter : rest.length < text.length

/-- A text left over after something that may be empty. -/
abbrev Remainder (text : List Char) := { rest : List Char // rest.length ≤ text.length }

/-- A reading of the end of a text, as one of the whole text. -/
def Reading.widen {α : Type} {part text : List Char} (r : Reading α part)
    (h : part.length ≤ text.length) : Reading α text :=
  ⟨r.value, r.rest, Nat.lt_of_lt_of_le r.shorter h⟩

/-- A remainder of the end of a text, as one of the whole text. -/
def Remainder.widen {part text : List Char} (rest : Remainder part)
    (h : part.length < text.length) : Remainder text :=
  ⟨rest.val, Nat.le_of_lt (Nat.lt_of_le_of_lt rest.property h)⟩

/-- What follows the mark of a comment is shorter than the text before it. -/
theorem Remainder.comment_shorter {text cs : List Char} (start : Remainder text)
    (h : start.val = '#' :: cs) (line : Remainder cs) : line.val.length < text.length := by
  have h₁ := start.property
  have h₂ := line.property
  rw [h, List.length_cons] at h₁
  omega

/-- A problem with a text. -/
def fail {α : Type} (problem : SettingsProblem) (rest : List Char) : Except Fault α :=
  .error (.problem problem rest)

/-! ## Gaps -/

/-- A blank within a line. -/
def isLayout (c : Char) : Bool := c == ' ' || c == '\t'

/-- A blank between the items of a list. -/
def isLayoutOrBreak (c : Char) : Bool := isLayout c || c == '\n'

/-- A control character that may not stand in a line. -/
def isControl (c : Char) : Bool := (c.toNat < 0x20 && c != '\t') || c.toNat == 0x7f

/-- A text without the blanks at its start. -/
def skip (blank : Char → Bool) (text : List Char) : Remainder text :=
  ⟨text.dropWhile blank, (List.dropWhile_suffix blank).length_le⟩

/-- The end of the line on which a comment stands. -/
def comment (text : List Char) : Except Fault (Remainder text) :=
  let rest : Remainder text := skip (fun c => !isControl c) text
  match rest.val with
  | [] | '\n' :: _ => .ok rest
  | c :: _ => fail (.invalid c) rest.val

/-- The text after blanks, line breaks and comments. -/
def skipGap (text : List Char) : Except Fault (Remainder text) :=
  let start := skip isLayoutOrBreak text
  match _h : start.val with
  | '#' :: cs =>
    match comment cs with
    | .error fault => .error fault
    | .ok line =>
      have : line.val.length < text.length := start.comment_shorter _h line
      (skipGap line.val).map (·.widen this)
  | _ => .ok start
termination_by text.length

/-! ## Digits -/

/-- The value of a digit in a base up to sixteen. -/
def digitIn? (base : Nat) (c : Char) : Option Nat :=
  let value? :=
    if c.isDigit then some (c.toNat - '0'.toNat)
    else if 'a' ≤ c ∧ c ≤ 'f' then some (c.toNat - 'a'.toNat + 10)
    else if 'A' ≤ c ∧ c ≤ 'F' then some (c.toNat - 'A'.toNat + 10)
    else none
  value?.filter (· < base)

/-- The number that some digits write in a base. -/
def ofDigits (base : Nat) (digits : List Char) : Nat :=
  digits.foldl (fun n c => base * n + (digitIn? base c).getD 0) 0

/-- The digits that go on a number, without the single underscores before them, and the rest. -/
def moreDigits (base : Nat) : List Char → List Char × List Char
  | [] => ([], [])
  | '_' :: c :: cs =>
    if (digitIn? base c).isSome then
      let (digits, rest) := moreDigits base cs
      (c :: digits, rest)
    else ([], '_' :: c :: cs)
  | c :: cs =>
    if (digitIn? base c).isSome then
      let (digits, rest) := moreDigits base cs
      (c :: digits, rest)
    else ([], c :: cs)

/-- The digits at the start of a text, without the single underscores between them, and the rest. -/
def someDigits (base : Nat) : List Char → List Char × List Char
  | [] => ([], [])
  | c :: cs =>
    if (digitIn? base c).isSome then
      let (digits, rest) := moreDigits base cs
      (c :: digits, rest)
    else ([], c :: cs)

theorem moreDigits_length_le (base : Nat) (text : List Char) :
    (moreDigits base text).2.length ≤ text.length := by
  fun_induction moreDigits base text <;> simp_all <;> omega

theorem someDigits_length_le (base : Nat) (text : List Char) :
    (someDigits base text).2.length ≤ text.length := by
  match text with
  | [] => simp [someDigits]
  | c :: cs =>
    rw [someDigits]
    split
    · have := moreDigits_length_le base cs
      simp
      omega
    · simp

/-! ## Numbers -/

/-- The decimals after a point at the start of a text, and the rest. -/
def decimals : List Char → List Char × List Char
  | '.' :: cs =>
    let (digits, rest) := someDigits 10 cs
    if digits.isEmpty then ([], '.' :: cs) else (digits, rest)
  | cs => ([], cs)

/-- The exponent at the start of a text, if there is one, and the rest. -/
def exponent (text : List Char) : Option Int × List Char :=
  match text with
  | [] => (none, [])
  | c :: cs =>
    let (negative, body) := splitSign cs
    let (digits, rest) := someDigits 10 body
    if (c = 'e' ∨ c = 'E') ∧ ¬ digits.isEmpty then
      (some (if negative then -(ofDigits 10 digits : Int) else ofDigits 10 digits), rest)
    else (none, text)

/-- The digits before the point of a number: a zero stands alone. -/
def wholeDigits : List Char → List Char × List Char
  | '0' :: cs => (['0'], cs)
  | cs => someDigits 10 cs

/-- The value of a number that is written with digits, decimals and an exponent: with digits alone it
is a whole number, whose length is limited. -/
def numberOf (negative : Bool) (digits decimals : List Char) (exponent : Option Int) :
    Except Fault Value :=
  if ¬ decimals.isEmpty ∨ exponent.isSome then
    .ok (.float (floatOfWide negative (ofDigits 10 (digits ++ decimals))
      (exponent.getD 0 - decimals.length)))
  else if maxWholeDigits < digits.length then .error (.longNumber digits.length)
  else .ok (.int (if negative then -(ofDigits 10 digits : Int) else ofDigits 10 digits))

/-- The base that a letter after a zero stands for. -/
def base? : Char → Option Nat
  | 'x' => some 16
  | 'o' => some 8
  | 'b' => some 2
  | _ => none

theorem decimals_length_le (text : List Char) : (decimals text).2.length ≤ text.length := by
  unfold decimals
  split
  · next cs =>
    have := someDigits_length_le 10 cs
    simp only
    split <;> simp
    omega
  · simp

theorem splitSign_length_le (text : List Char) : (splitSign text).2.length ≤ text.length := by
  unfold splitSign
  split <;> simp

theorem exponent_length_le (text : List Char) : (exponent text).2.length ≤ text.length := by
  unfold exponent
  split
  · simp
  · next c cs =>
    have h₁ := splitSign_length_le cs
    have h₂ := someDigits_length_le 10 (splitSign cs).2
    simp only
    split
    · simp
      omega
    · simp

theorem wholeDigits_length_lt {text : List Char} (h : (wholeDigits text).1 ≠ []) :
    (wholeDigits text).2.length < text.length := by
  unfold wholeDigits at h ⊢
  split
  · simp
  · match text with
    | [] => simp [someDigits] at h
    | c :: cs =>
      have := moreDigits_length_le 10 cs
      simp only [someDigits] at h ⊢
      split
      · simp
        omega
      · simp_all

/-- The decimal number at the start of a text, which may have a sign, decimals and an exponent. -/
def decimalNumber? (text : List Char) : Option (Except Fault (Reading Value text)) :=
  let signed := splitSign text
  let whole := wholeDigits signed.2
  let fraction := decimals whole.2
  let power := exponent fraction.2
  if h : whole.1 = [] then none
  else some ((numberOf signed.1 whole.1 fraction.1 power.1).map fun value =>
    ⟨value, power.2, by
      have h₁ : power.2.length ≤ fraction.2.length := exponent_length_le _
      have h₂ : fraction.2.length ≤ whole.2.length := decimals_length_le _
      have h₃ : whole.2.length < signed.2.length := wholeDigits_length_lt h
      have h₄ : signed.2.length ≤ text.length := splitSign_length_le _
      omega⟩)

/-- The number at the start of a text: a decimal one, or a whole one in another base. -/
def number? (text : List Char) : Option (Except Fault (Reading Value text)) :=
  match text with
  | '0' :: letter :: cs =>
    match base? letter with
    | none => decimalNumber? ('0' :: letter :: cs)
    | some base =>
      let digits := someDigits base cs
      if digits.1.isEmpty then decimalNumber? ('0' :: letter :: cs)
      else some (.ok ⟨.int (ofDigits base digits.1), digits.2, by
        have : digits.2.length ≤ cs.length := someDigits_length_le base cs
        simp
        omega⟩)
  | text => decimalNumber? text

/-- The infinities and the undefined number, with their names. -/
def namedFloats : List (List Char × Float) := [
  ("inf".toList, floatOfDecimal false 1 decimalReach),
  ("+inf".toList, floatOfDecimal false 1 decimalReach),
  ("-inf".toList, floatOfDecimal true 1 decimalReach),
  ("nan".toList, 0.0 / 0.0), ("+nan".toList, 0.0 / 0.0), ("-nan".toList, 0.0 / 0.0)]

/-- The words for values. -/
def namedValues : List (List Char × Value) :=
  [("true".toList, .bool true), ("false".toList, .bool false)]
    ++ namedFloats.map fun (name, x) => (name, .float x)

theorem drop_length_lt {name text : List Char} (h : name.isPrefixOf text ∧ name ≠ []) :
    (text.drop name.length).length < text.length := by
  have h₁ := (List.isPrefixOf_iff_prefix.1 h.1).length_le
  have h₂ := List.length_pos_iff.2 h.2
  rw [List.length_drop]
  omega

/-- The word for a value at the start of a text. -/
def namedValue (text : List Char) : List (List Char × Value) → Except Fault (Reading Value text)
  | [] => fail .badValue text
  | (name, value) :: names =>
    if h : name.isPrefixOf text ∧ name ≠ [] then
      .ok ⟨value, text.drop name.length, drop_length_lt h⟩
    else namedValue text names

/-! ## Strings -/

/-- The character that a letter after a backslash stands for. -/
def unescape? : Char → Option Char
  | 'b' => some '\x08'
  | 't' => some '\t'
  | 'n' => some '\n'
  | 'f' => some '\x0c'
  | 'r' => some '\r'
  | '"' => some '"'
  | '\\' => some '\\'
  | _ => none

/-- The character with a code point that some digits write in base sixteen. -/
def codePoint (width : Nat) (text : List Char) : Except Fault (Char × Remainder text) :=
  let digits := text.take width
  let code := ofDigits 16 digits
  if digits.length < width ∨ ¬ digits.all fun c => (digitIn? 16 c).isSome then fail .badHex text
  else if code.isValidChar then
    .ok (Char.ofNat code, ⟨text.drop width, by simp⟩)
  else fail .badScalar (text.drop width)

/-- The character of an escape, after its backslash. -/
def escape (text : List Char) : Except Fault (Reading Char text) :=
  match text with
  | [] => fail .badEscape []
  | c :: cs =>
    if c = 'u' ∨ c = 'U' then
      (codePoint (if c = 'u' then 4 else 8) cs).map fun (c, rest) =>
        ⟨c, rest.val, by have := rest.property; simp; omega⟩
    else match unescape? c with
      | some c => .ok ⟨c, cs, by simp⟩
      | none => fail .badEscape cs

/-- The rest of a string with escapes, up to its closing quotation mark. -/
def escapedTail (text : List Char) : Except Fault (Reading (List Char) text) :=
  match text with
  | [] => fail .unclosedString []
  | c :: cs =>
    if c = '"' then .ok ⟨[], cs, by simp⟩
    else if c = '\\' then
      match escape cs with
      | .error fault => .error fault
      | .ok e =>
        have := e.shorter
        (escapedTail e.rest).map fun tail =>
          ⟨e.value :: tail.value, tail.rest, by have := tail.shorter; simp; omega⟩
    else if isControl c then fail (.illegal c) (c :: cs)
    else (escapedTail cs).map fun tail =>
      ⟨c :: tail.value, tail.rest, by have := tail.shorter; simp; omega⟩
termination_by text.length

/-- The rest of a string without escapes, up to its closing apostrophe. -/
def plainTail (text : List Char) : Except Fault (Reading (List Char) text) :=
  match text with
  | [] => fail .missingQuote []
  | c :: cs =>
    if c = '\'' then .ok ⟨[], cs, by simp⟩
    else if isControl c then fail (.invalid c) (c :: cs)
    else (plainTail cs).map fun tail =>
      ⟨c :: tail.value, tail.rest, by have := tail.shorter; simp; omega⟩

/-- A string after its opening quote mark. A string without escapes that is never closed is noticed
before anything in it. -/
def stringTail (quote : Char) (text : List Char) : Except Fault (Reading String text) :=
  let tail :=
    if quote = '"' then escapedTail text
    else if text.contains '\'' then plainTail text
    else fail .missingQuote []
  tail.map fun tail => ⟨String.ofList tail.value, tail.rest, tail.shorter⟩

/-! ## Keys -/

/-- A character of a name without quotes. -/
def isBare (c : Char) : Bool := c.isAlphanum || c == '_' || c == '-'

/-- One name of a key. -/
def keyPart (text : List Char) : Except Fault (Reading String text) :=
  match text with
  | [] => fail .keyStart []
  | c :: cs =>
    if c = '"' ∨ c = '\'' then (stringTail c cs).map (·.widen (Nat.le_succ _))
    else if isBare c then
      .ok ⟨String.ofList (c :: cs.takeWhile isBare), cs.dropWhile isBare, by
        have := (List.dropWhile_suffix (l := cs) isBare).length_le
        rw [List.length_cons]
        omega⟩
    else fail .keyStart (c :: cs)

/-- A key: names between points, with blanks around them. -/
def key (text : List Char) : Except Fault (Reading Key text) :=
  match keyPart text with
  | .error fault => .error fault
  | .ok part =>
    let after := skip isLayout part.rest
    match _h : after.val with
    | '.' :: cs =>
      let start := skip isLayout cs
      have : start.val.length < text.length := by
        have h₁ := start.property
        have h₂ := after.property
        have h₃ := part.shorter
        simp [_h] at h₂
        omega
      (key start.val).map fun more =>
        ⟨part.value :: more.value, more.rest, by have := more.shorter; omega⟩
    | _ => .ok ⟨[part.value], after.val, Nat.lt_of_le_of_lt after.property part.shorter⟩
termination_by text.length

/-! ## Values -/

/-- A value that is no list. -/
def scalar (text : List Char) : Except Fault (Reading Value text) :=
  match text with
  | [] => fail .badValue []
  | c :: cs =>
    if c = '"' ∨ c = '\'' then
      (stringTail c cs).map fun s => (⟨.text s.value, s.rest, s.shorter⟩ : Reading Value cs).widen
        (Nat.le_succ _)
    else match number? (c :: cs) with
      | some reading => reading
      | none => namedValue (c :: cs) namedValues

mutual

/-- A value. -/
def value (text : List Char) : Except Fault (Reading Value text) :=
  match text with
  | '[' :: cs =>
    (items cs).map fun list => ⟨.list list.value, list.rest, by have := list.shorter; simp; omega⟩
  | text => scalar text
termination_by (text.length, 0)

/-- The items of a list, up to its closing bracket. A comma may end them. -/
def items (text : List Char) : Except Fault (Reading (List Value) text) :=
  match skipGap text with
  | .error fault => .error fault
  | .ok start =>
    match _h : start.val with
    | ']' :: rest => .ok ⟨[], rest, by have := start.property; simp [_h] at this; omega⟩
    | _ =>
      have := start.property
      match value start.val with
      | .error fault => .error fault
      | .ok item =>
        match skipGap item.rest with
        | .error fault => .error fault
        | .ok after =>
          have := item.shorter
          match _h₂ : after.val with
          | ']' :: rest =>
            .ok ⟨[item.value], rest, by have := after.property; simp [_h₂] at this; omega⟩
          | ',' :: cs =>
            have : cs.length < text.length := by
              have := after.property
              simp [_h₂] at this
              omega
            (items cs).map fun more =>
              ⟨item.value :: more.value, more.rest, by have := more.shorter; omega⟩
          | rest => fail .unclosedList rest
termination_by (text.length, 1)
decreasing_by
  all_goals simp [Prod.lex_def]
  all_goals omega

end

/-! ## Statements -/

/-- A change of a draft that was tried with a text left over. -/
def settle {α : Type} (outcome : Except SettingsProblem α) (rest : List Char) : Except Fault α :=
  outcome.mapError (.problem · rest)

/-- A line that gives a value to a key. -/
def pair (d : Draft) (text : List Char) : Except Fault (Draft × Remainder text) := do
  let names ← key text
  match _h : names.rest with
  | '=' :: cs =>
    let start := skip isLayout cs
    let item ← value start.val
    let name := names.value.getLastD ""
    let d ← settle (d.assign names.value.dropLast name item.value) item.rest
    return (d, ⟨item.rest, by
      have h₁ := item.shorter
      have h₂ := start.property
      have h₃ := names.shorter
      simp [_h] at h₃
      omega⟩)
  | rest => fail .missingEquals rest

/-- A line that declares a section, after its opening bracket. -/
def header (d : Draft) (text : List Char) : Except Fault (Draft × Remainder text) := do
  let start := skip isLayout text
  let names ← key start.val
  let d ← settle (d.declare names.value) names.rest
  match _h : names.rest with
  | ']' :: rest =>
    return (d, ⟨rest, by
      have h₁ := names.shorter
      have h₂ := start.property
      simp [_h] at h₁
      omega⟩)
  | rest => fail .missingBracket rest

/-- A statement that starts with a character; a comment is left for the end of the line. -/
def statement (d : Draft) (c : Char) (cs : List Char) :
    Except Fault (Draft × Remainder (c :: cs)) :=
  if isBare c ∨ c = '"' ∨ c = '\'' then pair d (c :: cs)
  else if c = '[' then
    (header d cs).map fun (d, rest) => (d, ⟨rest.val, by have := rest.property; simp; omega⟩)
  else if c = '#' then .ok (d, ⟨c :: cs, by simp⟩)
  else fail .statement (c :: cs)

/-- The text after the end of a line, which may hold a comment; none at the end of the file. -/
def nextLine? (text : List Char) :
    Except Fault (Option { rest : List Char // rest.length < text.length }) :=
  let start := skip isLayout text
  let line : Except Fault (Remainder text) :=
    match _h : start.val with
    | '#' :: cs =>
      (comment cs).map fun rest => ⟨rest.val, by
        have h₁ := rest.property
        have h₂ := start.property
        simp [_h] at h₂
        omega⟩
    | _ => .ok start
  match line with
  | .error fault => .error fault
  | .ok line =>
    match _h : line.val with
    | [] => .ok none
    | '\n' :: rest => .ok (some ⟨rest, by have := line.property; simp [_h] at this; omega⟩)
    | rest => fail .missingLineEnd rest

/-- Reads lines into a draft. -/
def lines (d : Draft) (text : List Char) : Except Fault Draft :=
  let start := skip isLayout text
  match _h : start.val with
  | [] => .ok d
  | c :: cs =>
    have h₁ : cs.length + 1 ≤ text.length := by
      have := start.property
      simpa [_h] using this
    if c = '\n' then lines d cs
    else match statement d c cs with
      | .error fault => .error fault
      | .ok (d, after) =>
        match nextLine? after.val with
        | .error fault => .error fault
        | .ok none => .ok d
        | .ok (some rest) =>
          have h₂ : after.val.length ≤ cs.length + 1 := after.property
          have h₃ := rest.property
          lines d rest.val
termination_by text.length

/-! ## Files -/

/-- The place in a file at which some text is left. -/
def placeOf (text rest : List Char) : Option Text.Position :=
  if rest.isEmpty then none
  else some (Text.Position.first.after (text.take (text.length - rest.length)))

/-- A fault in a file as an error. -/
def errorOf (text : List Char) : Fault → SettingsError
  | .problem problem rest => .problem problem (placeOf text rest)
  | .longNumber digits => .longNumber digits

/-- The settings in the text of a file. -/
def read (text : String) : Except SettingsError (Entries Value) :=
  let text := Text.unifyBreaks text.toList
  match lines .empty text with
  | .ok d => .ok d.table
  | .error fault => .error (errorOf text fault)

end Screenplay.Settings
