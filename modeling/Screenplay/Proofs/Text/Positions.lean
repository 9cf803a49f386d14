/-
Places in a text, by counting. Going through a text one character after the other comes to the place that counting
its line breaks and the characters since the last of them gives.
-/
import Mathlib.Data.List.DropRight
import Screenplay.Text.Lines

namespace Screenplay.Text.Position

/-- The place after some characters at the start of a text: one more line for every line break, and one more column
for every character since the last of them. -/
def counted (cs : List Char) : Position := ⟨1 + cs.count '\n', 1 + (cs.rtakeWhile (· ≠ '\n')).length⟩

theorem counted_concat (cs : List Char) (c : Char) : counted (cs ++ [c]) = (counted cs).next c := by
  unfold counted next
  by_cases h : c = '\n'
  · rw [if_pos h, List.rtakeWhile_concat_neg _ _ _ (by simpa using h), h, List.count_append]
    rfl
  · rw [if_neg h, List.rtakeWhile_concat_pos _ _ _ (by simpa using h), List.length_append, List.count_append,
      List.count_singleton, beq_false_of_ne h]
    rfl

theorem first_after (cs : List Char) : first.after cs = counted cs := by
  induction cs using List.reverseRecOn with
  | nil => rfl
  | append_singleton cs c ih => rw [counted_concat, ← ih, after, after, List.foldl_concat]

theorem counted_append (cs ds : List Char) : counted (cs ++ ds) = (counted cs).after ds := by
  rw [← first_after, ← first_after, after, after, after, List.foldl_append]

end Screenplay.Text.Position
