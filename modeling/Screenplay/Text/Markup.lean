/-
Inline markup: names between brackets that open and close styles. Shown as plain text, the tags of a
text are left out. What stands between brackets is a tag only if it starts like one; a backslash
before a bracket makes the bracket plain; a closing tag needs an opening one.
-/
import Screenplay.Text.Blank
import Screenplay.Text.Case

namespace Screenplay.Text.Markup

/-- A closing tag that closes nothing. -/
structure Unmatched where
  tag : List Char
deriving Repr, DecidableEq

/-! ## Tags -/

/-- A character that a tag starts with. -/
def startsTag (c : Char) : Bool := c.isLower || c == '#' || c == '/' || c == '@'

/-- The tag after an opening bracket, without its closing one, and the rest. -/
def tag? (text : List Char) : Option (List Char × List Char) :=
  let tag := text.takeWhile fun c => c != '[' && c != ']'
  match tag, text.drop tag.length with
  | c :: cs, ']' :: rest => if startsTag c then some (c :: cs, rest) else none
  | _, _ => none

theorem tag?_length_lt {text tag rest : List Char} (h : tag? text = some (tag, rest)) :
    rest.length < text.length := by
  simp only [tag?] at h
  split at h
  · next c cs rest' heq hdrop =>
    split at h
    · simp only [Option.some.injEq, Prod.mk.injEq] at h
      have := congrArg List.length hdrop
      simp only [List.length_drop, List.length_cons] at this
      rw [← h.2]
      omega
    · simp at h
  · simp at h

/-- The name of a style: the case of its letters and the blanks around it do not matter. -/
def styleName (tag : List Char) : List Char := fold (trim (tag.takeWhile (· != '=')))

/-- The open styles after a tag, the last one first. -/
def applyTag (opened : List (List Char)) (tag : List Char) :
    Except Unmatched (List (List Char)) :=
  match tag.takeWhile (· != '=') with
  | '/' :: name =>
    let name := styleName name
    if name.isEmpty then (if opened.isEmpty then .error ⟨tag⟩ else .ok opened.tail)
    else if opened.contains name then .ok (opened.erase name)
    else .error ⟨tag⟩
  | name => .ok (styleName name :: opened)

/-! ## Plain text -/

/-- The text without its tags; `slashes` backslashes stand before it. -/
def plainFrom (opened : List (List Char)) (slashes : Nat) (text : List Char) :
    Except Unmatched (List Char) :=
  match text with
  | [] => .ok (List.replicate slashes '\\')
  | c :: cs =>
    if c = '\\' then plainFrom opened (slashes + 1) cs
    else if c = '[' then
      match _h : tag? cs with
      | none => (plainFrom opened 0 cs).map fun rest =>
        List.replicate (slashes - 1) '\\' ++ '[' :: rest
      | some (tag, rest) =>
        have := tag?_length_lt _h
        let shown := List.replicate (slashes / 2) '\\'
        if slashes % 2 = 1 then
          (plainFrom opened 0 rest).map fun rest => shown ++ '[' :: tag ++ ']' :: rest
        else match applyTag opened tag with
          | .error e => .error e
          | .ok opened => (plainFrom opened 0 rest).map (shown ++ ·)
    else (plainFrom opened 0 cs).map fun rest => List.replicate slashes '\\' ++ c :: rest
termination_by text.length

/-- A control character that is never shown. -/
def isHidden (c : Char) : Bool := ['\x07', '\x08', '\x0b', '\x0c', '\r'].contains c

/-- What a text with markup shows. -/
def plain (text : String) : Except Unmatched String :=
  (plainFrom [] 0 text.toList).map fun shown =>
    String.ofList (shown.filter fun c => !isHidden c)

end Screenplay.Text.Markup
