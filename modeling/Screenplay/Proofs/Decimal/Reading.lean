/-
What the text of a decimal stands for: the amount that its digits, its point and its exponent say. The
layout of a decimal stands for the decimal, in every style.
-/
import Screenplay.Decimal.Shortest
import Mathlib.Algebra.Order.Field.Power
import Mathlib.Data.List.TakeDrop
import Mathlib.Data.List.TakeWhile
import Mathlib.Tactic.FieldSimp
import Mathlib.Tactic.NormNum
import Mathlib.Tactic.Positivity
import Mathlib.Tactic.Ring

namespace Screenplay.Decimal

/-! ## Amounts -/

/-- The number that digits say. -/
def numeral (cs : List Char) : ℕ := Nat.ofDigitChars 10 cs 0

/-- The amount of digits with a point. -/
def fixedAmount (cs : List Char) : ℚ :=
  let whole := cs.takeWhile (· != '.')
  let fraction := (cs.dropWhile (· != '.')).drop 1
  numeral (whole ++ fraction) / 10 ^ fraction.length

/-- The amount of digits with a point and an exponent, either of which may be missing. -/
def amount (cs : List Char) : ℚ :=
  let digits := fixedAmount (cs.takeWhile (· != 'e'))
  match (cs.dropWhile (· != 'e')).drop 1 with
  | '-' :: places => digits / 10 ^ numeral places
  | '+' :: places => digits * 10 ^ numeral places
  | _ => digits

variable {c : Char} {cs ds : List Char}

theorem takeWhile_until (h : c ∉ cs) (ds : List Char) : (cs ++ c :: ds).takeWhile (· != c) = cs := by
  rw [List.takeWhile_append_of_pos (fun d hd => by simpa using ne_of_mem_of_not_mem hd h)]
  simp

theorem dropWhile_until (h : c ∉ cs) (ds : List Char) :
    ((cs ++ c :: ds).dropWhile (· != c)).drop 1 = ds := by
  rw [List.dropWhile_append_of_pos (fun d hd => by simpa using ne_of_mem_of_not_mem hd h)]
  simp

theorem takeWhile_without (h : c ∉ cs) : cs.takeWhile (· != c) = cs := by
  rw [List.takeWhile_eq_self_iff]
  exact fun d hd => by simpa using ne_of_mem_of_not_mem hd h

theorem dropWhile_without (h : c ∉ cs) : (cs.dropWhile (· != c)).drop 1 = [] := by
  rw [List.dropWhile_eq_nil_iff.mpr fun d hd => by simpa using ne_of_mem_of_not_mem hd h]
  rfl

theorem fixedAmount_point (h : '.' ∉ cs) (ds : List Char) :
    fixedAmount (cs ++ '.' :: ds) = numeral (cs ++ ds) / 10 ^ ds.length := by
  unfold fixedAmount
  rw [takeWhile_until h, dropWhile_until h]

theorem fixedAmount_whole (h : '.' ∉ cs) : fixedAmount cs = numeral cs := by
  unfold fixedAmount
  rw [takeWhile_without h, dropWhile_without h]
  simp

theorem amount_fixed (h : 'e' ∉ cs) : amount cs = fixedAmount cs := by
  unfold amount
  rw [takeWhile_without h, dropWhile_without h]

theorem amount_down (h : 'e' ∉ cs) (ds : List Char) :
    amount (cs ++ 'e' :: '-' :: ds) = fixedAmount cs / 10 ^ numeral ds := by
  unfold amount
  rw [takeWhile_until h, dropWhile_until h]
  rfl

theorem amount_up (h : 'e' ∉ cs) (ds : List Char) :
    amount (cs ++ 'e' :: '+' :: ds) = fixedAmount cs * 10 ^ numeral ds := by
  unfold amount
  rw [takeWhile_until h, dropWhile_until h]
  rfl

/-! ## Digits -/

theorem numeral_zeros (k : ℕ) (cs : List Char) : numeral (List.replicate k '0' ++ cs) = numeral cs := by
  unfold numeral
  rw [Nat.ofDigitChars_append, Nat.ofDigitChars_replicate_zero, Nat.mul_zero]

theorem numeral_shift (cs : List Char) (k : ℕ) :
    numeral (cs ++ List.replicate k '0') = numeral cs * 10 ^ k := by
  unfold numeral
  rw [Nat.ofDigitChars_append, Nat.ofDigitChars_replicate_zero, Nat.mul_comm]

theorem numeral_toDigits (n : ℕ) : numeral (Nat.toDigits 10 n) = n := Nat.ofDigitChars_ten_toDigits

/-- The digits of a number are its significant digits and zeros after them. -/
theorem exists_zeros (n : ℕ) :
    ∃ k, Nat.toDigits 10 n = significant n ++ List.replicate k '0' := by
  have zeros : ((Nat.toDigits 10 n).reverse.takeWhile (· == '0')).reverse
      = List.replicate ((Nat.toDigits 10 n).reverse.takeWhile (· == '0')).length '0' := by
    rw [List.eq_replicate_iff]
    refine ⟨List.length_reverse, fun c hc => ?_⟩
    simpa using List.mem_takeWhile_imp (List.mem_reverse.mp hc)
  refine ⟨((Nat.toDigits 10 n).reverse.takeWhile (· == '0')).length, ?_⟩
  rw [← zeros, significant, ← List.reverse_append, List.takeWhile_append_dropWhile,
    List.reverse_reverse]

theorem isDigit_of_mem_significant {n : ℕ} (h : c ∈ significant n) : c.isDigit = true := by
  obtain ⟨k, hk⟩ := exists_zeros n
  have hmem : c ∈ Nat.toDigits 10 n := by
    rw [hk]
    exact List.mem_append_left _ h
  exact Nat.isDigit_of_mem_toDigits (by norm_num) (by norm_num) hmem

theorem not_mem_significant {n : ℕ} (hc : c.isDigit = false) : c ∉ significant n := by
  intro h
  rw [isDigit_of_mem_significant h] at hc
  cases hc

theorem significant_ne_nil {n : ℕ} (hn : 0 < n) : significant n ≠ [] := by
  intro h
  obtain ⟨k, hk⟩ := exists_zeros n
  have hzero : numeral (Nat.toDigits 10 n) = 0 := by
    rw [hk, h, List.nil_append, ← List.append_nil (List.replicate k '0'), numeral_zeros]
    rfl
  rw [numeral_toDigits] at hzero
  omega

/-- A decimal is its significant digits, moved to its decimal point. -/
theorem decimal_eq (n : ℕ) (e : ℤ) :
    (n : ℚ) * 10 ^ e
      = numeral (significant n) * 10 ^ (((digitCount n : ℤ) + e) - (significant n).length) := by
  obtain ⟨k, hk⟩ := exists_zeros n
  have hcount : digitCount n = (significant n).length + k := by
    unfold digitCount
    rw [hk, List.length_append, List.length_replicate]
  have hvalue : n = numeral (significant n) * 10 ^ k := by
    rw [← numeral_shift, ← hk, numeral_toDigits]
  have hplaces : ((digitCount n : ℤ) + e) - (significant n).length = k + e := by omega
  rw [hplaces, zpow_add₀ (by norm_num), zpow_natCast]
  calc (n : ℚ) * 10 ^ e = (numeral (significant n) * 10 ^ k : ℕ) * 10 ^ e := by rw [← hvalue]
    _ = numeral (significant n) * (10 ^ k * 10 ^ e) := by push_cast; ring

/-! ## Layouts -/

/-- Digits with the point after `k` of them. -/
theorem amount_pointed (hp : '.' ∉ cs) (he : 'e' ∉ cs) {k : ℕ} :
    amount (cs.take k ++ '.' :: cs.drop k) = numeral cs / 10 ^ (cs.length - k) := by
  have noMark : 'e' ∉ cs.take k ++ '.' :: cs.drop k := by
    simp only [List.mem_append, List.mem_cons, not_or]
    exact ⟨fun h => he (List.mem_of_mem_take h), by decide, fun h => he (List.mem_of_mem_drop h)⟩
  rw [amount_fixed noMark, fixedAmount_point fun h => hp (List.mem_of_mem_take h),
    List.take_append_drop, List.length_drop]

/-- Digits in full, with zeros up to the point. -/
theorem amount_filled (hp : '.' ∉ cs) (he : 'e' ∉ cs) (k : ℕ) :
    amount (cs ++ List.replicate k '0' ++ ['.', '0']) = numeral cs * 10 ^ k := by
  have noPoint : '.' ∉ cs ++ List.replicate k '0' := by simp [hp]
  have noMark : 'e' ∉ cs ++ List.replicate k '0' ++ ['.', '0'] := by simp [he]
  rw [amount_fixed noMark, fixedAmount_point noPoint, List.append_assoc,
    show List.replicate k '0' ++ ['0'] = List.replicate (k + 1) '0' from List.replicate_succ'.symm,
    numeral_shift]
  push_cast
  rw [List.length_singleton, pow_succ]
  field_simp

/-- Digits after the point and zeros. -/
theorem amount_led (he : 'e' ∉ cs) (k : ℕ) :
    amount ('0' :: '.' :: List.replicate k '0' ++ cs) = numeral cs / 10 ^ (k + cs.length) := by
  have noMark : 'e' ∉ ['0'] ++ '.' :: (List.replicate k '0' ++ cs) := by simp [he]
  have hsplit : '0' :: '.' :: List.replicate k '0' ++ cs
      = ['0'] ++ '.' :: (List.replicate k '0' ++ cs) := rfl
  rw [hsplit, amount_fixed noMark, fixedAmount_point (by decide), ← List.append_assoc,
    show ['0'] ++ List.replicate k '0' = List.replicate (k + 1) '0' from rfl, numeral_zeros,
    List.length_append, List.length_replicate]

/-- Digits with the point after the first one, unless it is the only one. -/
theorem fixedAmount_scientific (hp : '.' ∉ cs) :
    fixedAmount (cs.take 1 ++ (if cs.length = 1 then [] else '.' :: cs.drop 1))
      = numeral cs / 10 ^ (cs.length - 1) := by
  by_cases hone : cs.length = 1
  · have hall : cs.take 1 = cs := List.take_of_length_le hone.le
    rw [if_pos hone, List.append_nil, hall, fixedAmount_whole hp, hone]
    simp
  · rw [if_neg hone, fixedAmount_point fun h => hp (List.mem_of_mem_take h),
      List.take_append_drop, List.length_drop]

/-- The layout of a decimal stands for it. -/
theorem amount_layout (style : Style) {n : ℕ} (hn : 0 < n) (e : ℤ) :
    amount (layout style n e) = n * (10 : ℚ) ^ e := by
  have hp : '.' ∉ significant n := not_mem_significant (by decide)
  have he : 'e' ∉ significant n := not_mem_significant (by decide)
  have hlen : 0 < (significant n).length := List.length_pos_iff.mpr (significant_ne_nil hn)
  have hten : (10 : ℚ) ≠ 0 := by norm_num
  rw [decimal_eq n e]
  unfold layout
  dsimp only
  generalize (digitCount n : ℤ) + e = point
  generalize significant n = digits at *
  split
  -- written with a point: below one, among the digits, or behind them with zeros filled in
  · split
    · rename_i hpoint
      obtain ⟨k, rfl⟩ : ∃ k : ℕ, point = -(k : ℤ) := ⟨(-point).toNat, by omega⟩
      rw [neg_neg, Int.toNat_natCast, amount_led he]
      rw [show -(k : ℤ) - digits.length = -((k + digits.length : ℕ) : ℤ) by push_cast; ring,
        zpow_neg, zpow_natCast, div_eq_mul_inv]
    · rename_i hpoint
      obtain ⟨k, rfl⟩ : ∃ k : ℕ, point = k := ⟨point.toNat, by omega⟩
      rw [Int.toNat_natCast]
      split
      · rename_i hlt
        rw [amount_pointed hp he, show (k : ℤ) - digits.length = -((digits.length - k : ℕ) : ℤ) by omega,
          zpow_neg, zpow_natCast, div_eq_mul_inv]
      · rename_i hlt
        rw [amount_filled hp he, show (k : ℤ) - digits.length = ((k - digits.length : ℕ) : ℤ) by omega,
          zpow_natCast]
  -- written with an exponent: the digits are an amount from one to ten, scaled down or up
  · have noMark : 'e' ∉ digits.take 1 ++ (if digits.length = 1 then [] else '.' :: digits.drop 1) := by
      rw [List.mem_append, not_or]
      refine ⟨fun h => he (List.mem_of_mem_take h), ?_⟩
      split
      · exact List.not_mem_nil
      · rw [List.mem_cons, not_or]
        exact ⟨by decide, fun h => he (List.mem_of_mem_drop h)⟩
    have places : numeral (List.replicate (style.exponentWidth
        - (Nat.toDigits 10 (point - 1).natAbs).length) '0' ++ Nat.toDigits 10 (point - 1).natAbs)
        = (point - 1).natAbs := by
      rw [numeral_zeros, numeral_toDigits]
    simp only [List.append_assoc, List.cons_append, List.nil_append] at noMark ⊢
    rw [← List.append_assoc]
    by_cases hpoint : point < 1
    · rw [if_pos hpoint, amount_down noMark, places, fixedAmount_scientific hp]
      obtain ⟨k, hk⟩ : ∃ k : ℕ, point - 1 = -(k : ℤ) := ⟨(1 - point).toNat, by omega⟩
      rw [hk, Int.natAbs_neg, Int.natAbs_natCast, div_div, ← pow_add,
        show point - digits.length = -((digits.length - 1 + k : ℕ) : ℤ) by omega, zpow_neg,
        zpow_natCast, div_eq_mul_inv]
    · rw [if_neg hpoint, amount_up noMark, places, fixedAmount_scientific hp]
      obtain ⟨k, hk⟩ : ∃ k : ℕ, point - 1 = k := ⟨(point - 1).toNat, by omega⟩
      rw [hk, Int.natAbs_natCast,
        show point - digits.length = (k : ℤ) - ((digits.length - 1 : ℕ) : ℤ) by omega,
        zpow_sub₀ hten, zpow_natCast, zpow_natCast]
      field_simp

/-- The layout of a decimal starts with a digit. -/
theorem layout_cons (style : Style) {n : ℕ} (hn : 0 < n) (e : ℤ) :
    ∃ c cs, layout style n e = c :: cs ∧ c.isDigit = true := by
  obtain ⟨d, ds, hd⟩ := List.exists_cons_of_ne_nil (significant_ne_nil hn)
  have hdigit : d.isDigit = true := isDigit_of_mem_significant (hd ▸ List.mem_cons_self)
  unfold layout
  dsimp only
  rw [hd]
  split
  · split
    · exact ⟨_, _, rfl, by decide⟩
    · rename_i hpoint
      split
      · obtain ⟨k, hk⟩ : ∃ k, ((digitCount n : ℤ) + e).toNat = k + 1 :=
          ⟨((digitCount n : ℤ) + e).toNat - 1, by omega⟩
        rw [hk]
        exact ⟨_, _, rfl, hdigit⟩
      · exact ⟨_, _, rfl, hdigit⟩
  · exact ⟨_, _, rfl, hdigit⟩

/-- A layout is made of digits, a point and an exponent. -/
theorem mem_layout {style : Style} {n : ℕ} {e : ℤ} (h : c ∈ layout style n e) :
    c.isDigit = true ∨ c ∈ ['.', 'e', '+', '-'] := by
  have digits (hc : c ∈ significant n) : c.isDigit = true ∨ c ∈ ['.', 'e', '+', '-'] :=
    .inl (isDigit_of_mem_significant hc)
  have zeros {k : ℕ} (hc : c ∈ List.replicate k '0') : c.isDigit = true ∨ c ∈ ['.', 'e', '+', '-'] := by
    cases List.eq_of_mem_replicate hc
    exact .inl (by decide)
  have places {k : ℕ} (hc : c ∈ Nat.toDigits 10 k) : c.isDigit = true ∨ c ∈ ['.', 'e', '+', '-'] :=
    .inl (Nat.isDigit_of_mem_toDigits (by norm_num) (by norm_num) hc)
  -- every form of a layout is cut into its pieces, and each piece is of one kind
  unfold layout at h
  dsimp only at h
  split at h
  · split at h
    · rw [List.cons_append, List.cons_append, List.mem_cons, List.mem_cons, List.mem_append] at h
      obtain rfl | rfl | h | h := h
      · exact .inl (by decide)
      · exact .inr (by decide)
      · exact zeros h
      · exact digits h
    · split at h
      · rw [List.mem_append, List.mem_cons] at h
        obtain h | rfl | h := h
        · exact digits (List.mem_of_mem_take h)
        · exact .inr (by decide)
        · exact digits (List.mem_of_mem_drop h)
      · simp only [List.mem_append, List.mem_cons, List.not_mem_nil, or_false] at h
        obtain (h | h) | rfl | rfl := h
        · exact digits h
        · exact zeros h
        · exact .inr (by decide)
        · exact .inl (by decide)
  · simp only [List.mem_append, List.mem_cons, List.not_mem_nil, or_false] at h
    obtain (((h | h) | rfl | h) | h) | h := h
    · exact digits (List.mem_of_mem_take h)
    · split at h
      · cases h
      · obtain rfl | h := List.mem_cons.mp h
        · exact .inr (by decide)
        · exact digits (List.mem_of_mem_drop h)
    · exact .inr (by decide)
    · split at h
      · exact .inr (by simp [h])
      · exact .inr (by simp [h])
    · exact zeros h
    · exact places h

/-- The layout of a decimal has a point or an exponent. -/
theorem exists_mark_layout (style : Style) (n : ℕ) (e : ℤ) :
    '.' ∈ layout style n e ∨ 'e' ∈ layout style n e := by
  unfold layout
  dsimp only
  split
  · left
    split
    · simp
    · split <;> simp
  · right
    simp

end Screenplay.Decimal
