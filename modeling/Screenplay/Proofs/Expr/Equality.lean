/-
Equality of whole numbers in conditions: when it is told apart which whole numbers are equal, and
when the comparison as floating point numbers takes two of them for one or has no answer.
-/
import Screenplay.Expr.Evaluation
import Screenplay.Proofs.Decimal.Wholes

namespace Screenplay.Expr

open Decimal

variable {look : String → Option Value} {left right : Expr} {a b : ℤ}

/-- The sides of an equality that are whole numbers: literals, and the variables that hold one. -/
inductive Amounts (look : String → Option Value) : Expr → ℤ → Prop
  | literal (n : ℤ) : Amounts look (.literal (.int n)) n
  | var {name : String} {n : ℤ} (h : look name = some (.int n)) : Amounts look (.var name) n

/-- Whole numbers within the range of floating point numbers. -/
def InRange (a : ℤ) : Prop := a.natAbs < floatLimit

instance (a : ℤ) : Decidable (InRange a) := inferInstanceAs (Decidable (_ < _))

theorem toFloat?_int (a : ℤ) : (Value.int a).toFloat?
    = some (if InRange a then .ok (Float.ofInt a) else .error .overflow) := by
  simp only [Value.toFloat?, floatOfInt?]
  by_cases h : InRange a
  · have hlt : a.natAbs < floatLimit := h
    rw [if_pos h, if_pos hlt]
  · have hle : ¬ a.natAbs < floatLimit := h
    rw [if_neg h, if_neg hle]

theorem equal_of_toFloat? {v w : Value} {x y : Except Value.Overflow Float}
    (hv : v.toFloat? = some x) (hw : w.toFloat? = some y) :
    v.equal w = (do return (← x) == (← y)) := by
  unfold Value.equal
  split
  · cases hv
  · cases hv
  · rw [hv, hw]

/-- Two whole numbers are compared by the nearest numbers with 53 binary digits, and not at all
outside of the range of floating point numbers. -/
theorem equal_int (a b : ℤ) : (Value.int a).equal (.int b)
    = if InRange a ∧ InRange b then .ok (decide (nearestInt a = nearestInt b))
      else .error .overflow := by
  rw [equal_of_toFloat? (toFloat?_int a) (toFloat?_int b)]
  by_cases ha : InRange a
  · by_cases hb : InRange b
    · rw [if_pos ha, if_pos hb, if_pos ⟨ha, hb⟩]
      show Except.ok (Float.ofInt a == Float.ofInt b) = _
      rw [Bool.eq_iff_iff.mpr ((floatOfInt_beq_iff ha hb).trans decide_eq_true_iff.symm)]
    · have out : ¬ (InRange a ∧ InRange b) := fun h => hb h.2
      rw [if_pos ha, if_neg hb, if_neg out]
      rfl
  · have out : ¬ (InRange a ∧ InRange b) := fun h => ha h.1
    rw [if_neg ha, if_neg out]
    rfl

/-- An equality of which one side is a literal compares the values of its sides. -/
theorem holds_eq_equal (hl : Amounts look left a) (hr : Amounts look right b)
    (one : left = .literal (.int a) ∨ right = .literal (.int b)) :
    (Expr.binary .eq left right).holds look = (Value.int a).equal (.int b) := by
  -- two variables are never equal, so the cases are those with a literal
  obtain rfl | rfl := one
  · cases hl
    cases hr with
    | literal => rfl
    | var known => simp only [holds, side?, known]
  · cases hr
    cases hl with
    | literal => rfl
    | var known => simp only [holds, side?, known]

/-- The answer to an equality of whole numbers, a side of which is a literal. It tells equal and
different numbers apart exactly if both are in range and no number with 53 binary digits is nearest to
both of two different ones; so it does if one of them has at most 53 binary digits. Numbers that it
takes for equal are no further apart than neighbouring floating point numbers. -/
theorem equality_of_wholes (hl : Amounts look left a) (hr : Amounts look right b)
    (one : left = .literal (.int a) ∨ right = .literal (.int b)) :
    ((Expr.binary .eq left right).holds look
      = if InRange a ∧ InRange b then .ok (decide (nearestInt a = nearestInt b))
        else .error .overflow) ∧
    ((Expr.binary .eq left right).holds look = .ok (decide (a = b)) ↔
      InRange a ∧ InRange b ∧ (nearestInt a = nearestInt b → a = b)) ∧
    (a.natAbs < 2 ^ 53 ∨ b.natAbs < 2 ^ 53 → InRange a → InRange b →
      (Expr.binary .eq left right).holds look = .ok (decide (a = b))) ∧
    ((Expr.binary .eq left right).holds look = .ok true →
      2 * (a - b).natAbs ≤ spacing a.natAbs + spacing b.natAbs) := by
  have answer := (holds_eq_equal hl hr one).trans (equal_int a b)
  -- in range, the answer is that of the nearest numbers, which is right where they tell the two apart
  have exact_iff : (Expr.binary .eq left right).holds look = .ok (decide (a = b)) ↔
      InRange a ∧ InRange b ∧ (nearestInt a = nearestInt b → a = b) := by
    rw [answer]
    by_cases range : InRange a ∧ InRange b
    · rw [if_pos range, Except.ok.injEq, decide_eq_decide]
      constructor
      · intro same
        exact ⟨range.1, range.2, same.mp⟩
      · rintro ⟨-, -, same⟩
        exact ⟨same, congrArg nearestInt⟩
    · rw [if_neg range]
      exact iff_of_false (by rintro ⟨⟩) fun h => range ⟨h.1, h.2.1⟩
  refine ⟨answer, exact_iff, ?_, ?_⟩
  · intro small ha hb
    refine exact_iff.mpr ⟨ha, hb, ?_⟩
    obtain hlt | hlt := small
    · exact nearestInt_inj hlt
    · exact fun h => (nearestInt_inj hlt h.symm).symm
  · intro equal
    rw [answer] at equal
    by_cases range : InRange a ∧ InRange b
    · rw [if_pos range, Except.ok.injEq, decide_eq_true_iff] at equal
      exact sub_le_of_nearestInt_eq equal
    · rw [if_neg range] at equal
      cases equal

/-- A variable that holds a small number is equal to a literal exactly if it is the same number. -/
theorem equality_of_count :
    (Expr.binary .eq (.var "count") (.literal (.int 3))).holds (fun _ => some (.int 3)) = .ok true ∧
    (Expr.binary .eq (.var "count") (.literal (.int 4))).holds (fun _ => some (.int 3)) = .ok false :=
  ⟨(equality_of_wholes (a := 3) (.var rfl) (.literal 3) (.inr rfl)).2.2.1 (.inl (by decide))
      (by decide +kernel) (by decide +kernel),
    (equality_of_wholes (a := 3) (.var rfl) (.literal 4) (.inr rfl)).2.2.1 (.inl (by decide))
      (by decide +kernel) (by decide +kernel)⟩

/-- The equality is not exact: two neighbours with 54 binary digits are taken for one. -/
theorem equality_of_neighbours :
    ¬ ∀ (look : String → Option Value) (left right : Expr) (a b : ℤ), Amounts look left a →
      Amounts look right b → (left = .literal (.int a) ∨ right = .literal (.int b)) →
      (Expr.binary .eq left right).holds look = .ok (decide (a = b)) := by
  intro exactly
  let look : String → Option Value := fun _ => some (.int 9007199254740993)
  have equal : (Expr.binary .eq (.var "big") (.literal (.int 9007199254740992))).holds look
      = .ok true := by
    rw [holds_eq_equal (.var rfl) (.literal 9007199254740992) (.inr rfl), equal_int,
      if_pos (by decide +kernel)]
    rfl
  have different := exactly look (.var "big") _ _ _ (.var rfl) (.literal 9007199254740992) (.inr rfl)
  rw [equal] at different
  cases different

end Screenplay.Expr
