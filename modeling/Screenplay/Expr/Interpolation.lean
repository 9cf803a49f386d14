/-
Interpolated texts: the literal pieces of a text, and the sources of the expressions embedded in it
as `$` and a pair of braces. A piece that is never closed is literal.
-/
import Screenplay.Text.Search

namespace Screenplay

/-- A piece of an interpolated text. -/
inductive Segment where
  | literal (text : List Char)
  | embedded (source : List Char)
deriving Repr, DecidableEq

namespace Segment

/-- The embedded source at the start of a text, up to the next closing brace, and what follows it. -/
def splitEmbedded? : List Char → Option (List Char × List Char)
  | '$' :: '{' :: cs =>
    match cs.dropWhile (· ≠ '}') with
    | [] => none
    | _ :: rest => some (cs.takeWhile (· ≠ '}'), rest)
  | _ => none

theorem splitEmbedded?_append {text inner rest : List Char}
    (h : splitEmbedded? text = some (inner, rest)) : text = '$' :: '{' :: inner ++ '}' :: rest := by
  unfold splitEmbedded? at h
  split at h
  · next cs =>
    split at h
    · simp at h
    · next c r hd =>
      simp only [Option.some.injEq, Prod.mk.injEq] at h
      obtain ⟨rfl, rfl⟩ := h
      have hc : c = '}' := by
        have := List.head?_dropWhile_not (· ≠ '}') cs
        rw [hd] at this
        simpa using this
      subst hc
      simp [← hd, List.takeWhile_append_dropWhile]
  · simp at h

/-- Pieces with a character in front, which joins a literal piece. -/
def push (c : Char) : List Segment → List Segment
  | .literal text :: later => .literal (c :: text) :: later
  | later => .literal [c] :: later

/-- The pieces of a text. -/
def ofText (text : List Char) : List Segment :=
  match _h : splitEmbedded? text with
  | some (inner, rest) => .embedded inner :: ofText rest
  | none =>
    match text with
    | [] => []
    | c :: cs => push c (ofText cs)
termination_by text.length
decreasing_by
  · have := congrArg List.length (splitEmbedded?_append _h)
    simp at this
    omega
  · simp

/-- Whether a text starts an embedded expression anywhere, closed or not. -/
def embeds (text : List Char) : Bool := Text.occurs ['$', '{'] text

end Segment

end Screenplay
