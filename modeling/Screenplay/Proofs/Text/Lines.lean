/-
Lines of a text. A text has a line more than it has line breaks, and the lines that the index of line starts gives
are the pieces between the line breaks.
-/
import Screenplay.Proofs.Text.Pieces
import Screenplay.Proofs.Text.Positions

namespace Screenplay.Text

theorem length_cutAt (a : Char) (cs : List Char) : (cutAt a cs).length = cs.count a + 1 := by
  fun_induction cutAt a cs with
  | case1 => rfl
  | case2 cs ih => rw [List.length_cons, ih, List.count_cons_self]
  | case3 c cs _ none => exact absurd none (cutAt_ne_nil a cs)
  | case4 c cs other first later pieces ih =>
    rw [pieces] at ih
    rw [List.count_cons_of_ne other, ← ih]
    rfl

/-- The first piece goes up to the first separator. -/
theorem head?_cutAt (a : Char) (cs : List Char) : (cutAt a cs)[0]? = some (cs.takeWhile (· ≠ a)) := by
  fun_induction cutAt a cs with
  | case1 => rfl
  | case2 cs ih =>
    rw [List.takeWhile_cons_of_neg (by simp)]
    rfl
  | case3 c cs _ none => exact absurd none (cutAt_ne_nil a cs)
  | case4 c cs other first later pieces ih =>
    rw [pieces] at ih
    rw [List.takeWhile_cons_of_pos (by simpa using other)]
    cases ih
    rfl

/-- The pieces joined with the separator give the text back. -/
theorem intercalate_cutAt (a : Char) (cs : List Char) : [a].intercalate (cutAt a cs) = cs := by
  fun_induction cutAt a cs with
  | case1 => rfl
  | case2 cs ih =>
    cases pieces : cutAt a cs with
    | nil => exact absurd pieces (cutAt_ne_nil a cs)
    | cons first later =>
      rw [pieces] at ih
      rw [List.intercalate_cons_cons, ih]
      rfl
  | case3 c cs _ none => exact absurd none (cutAt_ne_nil a cs)
  | case4 c cs _ first later pieces ih =>
    rw [pieces] at ih
    rw [← ih]
    cases later with
    | nil => rw [List.intercalate_singleton, List.intercalate_singleton]
    | cons second later => rw [List.intercalate_cons_cons, List.intercalate_cons_cons]; rfl

/-- From each of the later line starts on up to the next line break stands one of the later pieces. -/
theorem getElem?_laterStarts (before cs : List Char) (n : Nat) :
    (laterStarts before.length cs)[n]?.map (fun start => ((before ++ cs).drop start).takeWhile (· ≠ '\n')) =
      (cutAt '\n' cs)[n + 1]? := by
  induction cs generalizing before n with
  | nil => rfl
  | cons c cs ih =>
    have further : before.length + 1 = (before ++ [c]).length := by
      rw [List.length_append, List.length_singleton]
    have same : before ++ c :: cs = before ++ [c] ++ cs := by rw [List.append_assoc, List.singleton_append]
    have later := ih (before ++ [c])
    rw [laterStarts, cutAt, further, same]
    split
    · next ends =>
      cases n with
      | zero =>
        rw [List.getElem?_cons_zero, Option.map_some, List.drop_left, List.getElem?_cons_succ, head?_cutAt]
      | succ n =>
        rw [List.getElem?_cons_succ, List.getElem?_cons_succ]
        exact later n
    · rw [later n]
      cases pieces : cutAt '\n' cs with
      | nil => exact absurd pieces (cutAt_ne_nil _ cs)
      | cons first others => rfl

/-- The text of a line is the piece of its number. -/
theorem lineText_ofText (text : List Char) (n : Nat) :
    (LineIndex.ofText text).lineText (n + 1) = (cutAt '\n' text)[n]?.getD [] := by
  unfold LineIndex.ofText LineIndex.lineText
  dsimp only
  rw [Nat.add_sub_cancel]
  cases n with
  | zero =>
    rw [head?_cutAt]
    rfl
  | succ n =>
    have later := getElem?_laterStarts [] text n
    rw [List.getElem?_cons_succ, ← later]
    show _ = ((laterStarts 0 text)[n]?.map _).getD []
    cases (laterStarts 0 text)[n]? <;> rfl

/-- Every place in a text is on one of its lines. -/
theorem exists_line (text : List Char) (offset : Nat) :
    ∃ line, (cutAt '\n' text)[(Position.counted (text.take offset)).line - 1]? = some line ∧
      (LineIndex.ofText text).lineText (Position.counted (text.take offset)).line = line := by
  have fewer : (text.take offset).count '\n' ≤ text.count '\n' := (List.take_sublist offset text).count_le _
  have line : (Position.counted (text.take offset)).line = (text.take offset).count '\n' + 1 := Nat.add_comm ..
  have inside : (text.take offset).count '\n' < (cutAt '\n' text).length := by
    rw [length_cutAt]
    omega
  rw [line, Nat.add_sub_cancel, lineText_ofText, List.getElem?_eq_getElem inside]
  exact ⟨_, rfl, rfl⟩

end Screenplay.Text
