/-
Searching in texts: whether one text occurs in another, and cutting a text at every occurrence of a
separator.
-/
namespace Screenplay.Text

/-! ## Occurrence -/

/-- Whether `part` stands somewhere in a text. -/
def occurs (part : List Char) : List Char → Bool
  | [] => part.isEmpty
  | c :: cs => part.isPrefixOf (c :: cs) || occurs part cs

/-- A text occurs in another exactly when it is one of its contiguous pieces. -/
theorem occurs_iff (part text : List Char) : occurs part text = true ↔ part <:+: text := by
  induction text with
  | nil => simp [occurs]
  | cons c cs ih => rw [occurs, Bool.or_eq_true, ih, List.isPrefixOf_iff_prefix, List.infix_cons_iff]

/-! ## Cutting -/

/-- The pieces of a text between the occurrences of a two-character separator `a b`, found from
left to right without overlap. -/
def cutAtPair (a b : Char) : List Char → List (List Char)
  | [] => [[]]
  | [c] => [[c]]
  | c :: d :: cs =>
    if c = a ∧ d = b then [] :: cutAtPair a b cs
    else match cutAtPair a b (d :: cs) with
      | [] => [[c]]
      | piece :: pieces => (c :: piece) :: pieces

/-- The pieces of a text between the occurrences of a character. -/
def cutAt (a : Char) : List Char → List (List Char)
  | [] => [[]]
  | c :: cs =>
    if c = a then [] :: cutAt a cs
    else match cutAt a cs with
      | [] => [[c]]
      | piece :: pieces => (c :: piece) :: pieces

/-- Texts joined with a separator between neighbours. -/
def join (separator : String) : List String → String
  | [] => ""
  | [t] => t
  | t :: u :: ts => t ++ separator ++ join separator (u :: ts)

end Screenplay.Text
