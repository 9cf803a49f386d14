/-
The index of line starts against counting. Looking an offset up in the index gives the place that counting the line
breaks before it gives, a later offset stands at a later place, and the lines of the index make up the text.
-/
import Mathlib.Data.List.GetD
import Mathlib.Data.Nat.SuccPred
import Mathlib.Data.Prod.Lex
import Mathlib.Order.Interval.Set.Monotone
import Screenplay.Proofs.Text.Lines

namespace Screenplay.Text

/-! ## Bisection -/

/-- Where a bound reaches the entries of one list and none of the list after it, bisection comes to the end of the
first one. -/
theorem bisect_append {reached beyond : List Nat} {bound low high : Nat} (le : ∀ e ∈ reached, e ≤ bound)
    (gt : ∀ e ∈ beyond, bound < e) (hl : low ≤ reached.length) (hh : reached.length ≤ high)
    (inside : high ≤ (reached ++ beyond).length) : bisect (reached ++ beyond) bound low high = reached.length := by
  fun_induction bisect (reached ++ beyond) bound low high with
  | case1 low high open_ middle below ih =>
    -- the bound does not reach the entry in the middle, so it is none of the first list
    refine ih hl ?_ (by omega)
    by_contra first
    rw [List.getD_append _ _ _ _ (by omega), List.getD_eq_getElem _ _ (by omega)] at below
    exact absurd below (Nat.not_lt_of_le (le _ (List.getElem_mem _)))
  | case2 low high open_ middle above ih =>
    refine ih ?_ hh inside
    by_contra second
    rw [List.length_append] at inside
    rw [List.getD_append_right _ _ _ _ (by omega), List.getD_eq_getElem _ _ (by omega)] at above
    exact above (gt _ (List.getElem_mem _))
  | case3 low high closed => omega

/-! ## Line starts -/

theorem laterStarts_append (offset : Nat) (cs ds : List Char) :
    laterStarts offset (cs ++ ds) = laterStarts offset cs ++ laterStarts (offset + cs.length) ds := by
  induction cs generalizing offset with
  | nil => rfl
  | cons c cs ih =>
    have further : offset + (c :: cs).length = offset + 1 + cs.length := by
      rw [List.length_cons]
      omega
    rw [List.cons_append, laterStarts, laterStarts, ih, further]
    split <;> rfl

/-- The later lines of a text start in it, or at its end. -/
theorem mem_laterStarts {offset start : Nat} {cs : List Char} (h : start ∈ laterStarts offset cs) :
    offset < start ∧ start ≤ offset + cs.length := by
  induction cs generalizing offset with
  | nil => cases h
  | cons c cs ih =>
    have inside (h : start ∈ laterStarts (offset + 1) cs) : offset < start ∧ start ≤ offset + (c :: cs).length := by
      have := ih h
      rw [List.length_cons]
      omega
    rw [laterStarts] at h
    split at h
    · rcases List.mem_cons.mp h with rfl | h
      · rw [List.length_cons]
        omega
      · exact inside h
    · exact inside h

theorem length_laterStarts (offset : Nat) (cs : List Char) : (laterStarts offset cs).length = cs.count '\n' := by
  induction cs generalizing offset with
  | nil => rfl
  | cons c cs ih =>
    rw [laterStarts]
    split
    · next ends => rw [ends, List.length_cons, ih, List.count_cons_self]
    · next other => rw [ih, List.count_cons_of_ne other]

namespace LineIndex

theorem starts_ofText_append (cs ds : List Char) :
    (ofText (cs ++ ds)).starts = (ofText cs).starts ++ laterStarts cs.length ds := by
  show 0 :: laterStarts 0 (cs ++ ds) = 0 :: laterStarts 0 cs ++ laterStarts cs.length ds
  rw [laterStarts_append, Nat.zero_add, List.cons_append]

/-- A text has a line more than it has line breaks. -/
theorem length_starts_ofText (text : List Char) : (ofText text).starts.length = text.count '\n' + 1 := by
  show (0 :: laterStarts 0 text).length = _
  rw [List.length_cons, length_laterStarts]

/-- The characters of a text since its last line break stand after the start of its last line. -/
theorem lastStart_add (cs : List Char) :
    (ofText cs).starts.getD (cs.count '\n') 0 + (cs.rtakeWhile (· ≠ '\n')).length = cs.length := by
  induction cs using List.reverseRecOn with
  | nil => rfl
  | append_singleton cs c ih =>
    rw [starts_ofText_append, List.count_append, List.length_append, List.length_singleton]
    by_cases ends : c = '\n'
    · have last : (ofText cs).starts.length ≤ cs.count '\n' + [c].count '\n' := by
        rw [length_starts_ofText, ends]
        rfl
      rw [List.getD_append_right _ _ _ _ last, length_starts_ofText, ends,
        List.rtakeWhile_concat_neg _ _ _ (by simp)]
      simp [laterStarts]
    · have none : laterStarts cs.length [c] = [] := by simp [laterStarts, ends]
      rw [none, List.append_nil, List.count_singleton, beq_false_of_ne ends,
        List.rtakeWhile_concat_pos _ _ _ (by simpa using ends), List.length_append, List.length_singleton,
        ← Nat.add_assoc]
      exact congrArg (· + 1) ih

/-! ## Offsets -/

variable {text : List Char} {offset : Nat}

/-- The lines of a text up to an offset start where those of the text before it do, and the other ones start after
the offset. -/
theorem starts_ofText_take (h : offset ≤ text.length) :
    (ofText text).starts = (ofText (text.take offset)).starts ++ laterStarts offset (text.drop offset) := by
  have parts := starts_ofText_append (text.take offset) (text.drop offset)
  rwa [List.take_append_drop, List.length_take_of_le h] at parts

/-- The line of an offset is counted from one by the line breaks before it. -/
theorem lineOf_ofText (h : offset ≤ text.length) : (ofText text).lineOf offset = (text.take offset).count '\n' + 1 := by
  have le : ∀ start ∈ (ofText (text.take offset)).starts, start ≤ offset := by
    intro start hs
    rcases List.mem_cons.mp hs with rfl | hs
    · exact Nat.zero_le _
    · have := (mem_laterStarts hs).2
      rwa [Nat.zero_add, List.length_take_of_le h] at this
  have gt : ∀ start ∈ laterStarts offset (text.drop offset), offset < start := fun start hs => (mem_laterStarts hs).1
  rw [lineOf, starts_ofText_take h, bisect_append le gt (Nat.zero_le _) (by simp) (Nat.le_refl _),
    length_starts_ofText]

/-- The place of an offset is the one that counting comes to. -/
theorem position_ofText (h : offset ≤ text.length) :
    (ofText text).position offset = Position.counted (text.take offset) := by
  have inside : (text.take offset).count '\n' < (ofText (text.take offset)).starts.length := by
    rw [length_starts_ofText]
    exact Nat.lt_succ_self _
  have since := lastStart_add (text.take offset)
  rw [List.length_take_of_le h] at since
  rw [position, lineOf_ofText h, Nat.add_sub_cancel, starts_ofText_take h, List.getD_append _ _ _ _ inside,
    Position.counted]
  congr 1 <;> omega

/-! ## Places in order -/

end LineIndex

/-- A place in reading order: line by line, and in a line column by column. -/
def Position.inOrder (p : Position) : ℕ ×ₗ ℕ := toLex (p.line, p.column)

theorem Position.inOrder_lt_next (p : Position) (c : Char) : p.inOrder < (p.next c).inOrder := by
  rw [inOrder, inOrder, Prod.Lex.toLex_lt_toLex]
  unfold next
  split
  · exact .inl (Nat.lt_succ_self _)
  · exact .inr ⟨rfl, Nat.lt_succ_self _⟩

namespace LineIndex

/-- A later offset stands at a later place. -/
theorem strictMonoOn_position (text : List Char) :
    StrictMonoOn (fun offset => ((ofText text).position offset).inOrder) (Set.Iic text.length) := by
  refine strictMonoOn_Iic_of_lt_succ fun offset h => ?_
  have next : (ofText text).position (offset + 1) = ((ofText text).position offset).next text[offset] := by
    rw [position_ofText h, position_ofText (Nat.le_of_lt h), ← Position.counted_concat, List.take_append_getElem]
  rw [Nat.succ_eq_succ, next]
  exact Position.inOrder_lt_next _ _

/-! ## Lines -/

/-- The lines of a text, from the first to the last, are its pieces between the line breaks. -/
theorem lines_ofText (text : List Char) :
    (List.range' 1 (ofText text).starts.length).map (ofText text).lineText = cutAt '\n' text := by
  have length : (ofText text).starts.length = (cutAt '\n' text).length := by
    rw [length_starts_ofText, length_cutAt]
  refine List.ext_getElem (by simp [length]) fun n _ inside => ?_
  rw [List.getElem_map, List.getElem_range', Nat.one_mul, Nat.add_comm, lineText_ofText,
    List.getElem?_eq_getElem inside]
  rfl

/-- The index of a text inverts counting: an offset is looked up to the line that its line breaks count and to the
column that its characters since the last of them count, later offsets stand at later places, and the lines joined
with line breaks give the text back. -/
theorem inverts_counting (text : List Char) :
    (∀ offset ≤ text.length, (ofText text).position offset =
      ⟨1 + (text.take offset).count '\n', 1 + ((text.take offset).rtakeWhile (· ≠ '\n')).length⟩) ∧
    StrictMonoOn (fun offset => ((ofText text).position offset).inOrder) (Set.Iic text.length) ∧
    ['\n'].intercalate ((List.range' 1 (ofText text).starts.length).map (ofText text).lineText) = text := by
  refine ⟨fun offset h => position_ofText h, strictMonoOn_position text, ?_⟩
  rw [lines_ofText, intercalate_cutAt]

end LineIndex

end Screenplay.Text
