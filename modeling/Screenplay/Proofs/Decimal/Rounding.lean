/-
The decimals that round to a binary number: the rounding interval of a bit pattern as an interval of
rational numbers, the shortest decimal as a member of it, and no decimal in the intervals of two bit
patterns.
-/
import Screenplay.Decimal.Shortest
import Mathlib.Algebra.Order.Field.Power
import Mathlib.Data.Rat.Cast.Order
import Mathlib.Tactic.FieldSimp
import Mathlib.Tactic.Linarith
import Mathlib.Tactic.NormNum
import Mathlib.Tactic.Positivity
import Mathlib.Tactic.Ring

namespace Screenplay.Decimal

/-! ## Exact comparisons -/

namespace Ratio

/-- The rational number that a ratio stands for. -/
def toRat (r : Ratio) : ℚ := r.num / r.den

/-- A ratio whose denominator is not zero. -/
def Sound (r : Ratio) : Prop := 0 < r.den

variable {a b r : Ratio} {base : ℕ}

theorem sound_scaled (hb : 0 < base) (n : ℕ) (e : ℤ) : (scaled base n e).Sound := by
  unfold scaled Sound
  split
  · exact Nat.one_pos
  · exact Nat.pow_pos hb

theorem toRat_scaled (n : ℕ) (e : ℤ) :
    (scaled base n e).toRat = n * (base : ℚ) ^ e := by
  unfold scaled toRat
  split
  · rename_i he
    obtain ⟨k, rfl⟩ := Int.eq_ofNat_of_zero_le he
    simp
  · rename_i he
    obtain ⟨k, rfl⟩ : ∃ k : ℕ, e = -(k : ℤ) := ⟨(-e).toNat, by omega⟩
    simp [div_eq_mul_inv]

/-- Comparing two ratios by cross multiplication compares their rational numbers. -/
theorem compare_spec (ha : a.Sound) (hb : b.Sound) :
    (a.compare b = .lt ↔ a.toRat < b.toRat) ∧ (a.compare b = .eq ↔ a.toRat = b.toRat) ∧
      (a.compare b = .gt ↔ b.toRat < a.toRat) := by
  have hda : (0 : ℚ) < a.den := by exact_mod_cast ha
  have hdb : (0 : ℚ) < b.den := by exact_mod_cast hb
  have lt : a.toRat < b.toRat ↔ a.num * b.den < b.num * a.den := by
    unfold toRat
    rw [div_lt_div_iff₀ hda hdb]
    exact_mod_cast Iff.rfl
  have eq : a.toRat = b.toRat ↔ a.num * b.den = b.num * a.den := by
    unfold toRat
    rw [div_eq_div_iff hda.ne' hdb.ne']
    exact_mod_cast Iff.rfl
  have gt : b.toRat < a.toRat ↔ b.num * a.den < a.num * b.den := by
    unfold toRat
    rw [div_lt_div_iff₀ hdb hda]
    exact_mod_cast Iff.rfl
  rw [lt, eq, gt]
  exact ⟨Nat.compare_eq_lt, Nat.compare_eq_eq, Nat.compare_eq_gt⟩

/-- A comparison that lets two equal ratios pass on a condition. -/
theorem compare_passes_iff (ha : a.Sound) (hb : b.Sound) (even : Bool) :
    (match a.compare b with | .lt => true | .eq => even | .gt => false) = true
      ↔ a.toRat < b.toRat ∨ a.toRat = b.toRat ∧ even = true := by
  obtain ⟨lt, eq, gt⟩ := compare_spec ha hb
  cases hc : a.compare b with
  | lt => simp [lt.mp hc]
  | eq => simp [eq.mp hc]
  | gt =>
    have hlt := gt.mp hc
    simp [hlt.not_gt, hlt.ne']

/-- The whole part of a quotient is the number of whole divisors below the dividend. -/
theorem floorDiv_spec (ha : a.Sound) (hb : b.Sound) (hpos : 0 < b.num) :
    a.floorDiv b * b.toRat ≤ a.toRat ∧ a.toRat < (a.floorDiv b + 1 : ℕ) * b.toRat := by
  have hda : (0 : ℚ) < a.den := by exact_mod_cast ha
  have hdb : (0 : ℚ) < b.den := by exact_mod_cast hb
  have hdiv : 0 < a.den * b.num := Nat.mul_pos ha hpos
  have below : a.floorDiv b * (a.den * b.num) ≤ a.num * b.den := Nat.div_mul_le_self _ _
  have above : a.num * b.den < (a.floorDiv b + 1) * (a.den * b.num) :=
    Nat.lt_mul_of_div_lt (Nat.lt_succ_self _) hdiv
  unfold toRat
  constructor
  · rw [mul_div_assoc', div_le_div_iff₀ hdb hda]
    calc (a.floorDiv b : ℚ) * b.num * a.den
        = (a.floorDiv b * (a.den * b.num) : ℕ) := by push_cast; ring
      _ ≤ (a.num * b.den : ℕ) := by exact_mod_cast below
      _ = a.num * b.den := by push_cast; ring
  · rw [mul_div_assoc', div_lt_div_iff₀ hda hdb]
    calc (a.num : ℚ) * b.den = (a.num * b.den : ℕ) := by push_cast; ring
      _ < ((a.floorDiv b + 1) * (a.den * b.num) : ℕ) := by exact_mod_cast above
      _ = (a.floorDiv b + 1 : ℕ) * b.num * a.den := by push_cast; ring

end Ratio

/-! ## The place of the first digit -/

theorem digitCount_pos (n : ℕ) : 0 < digitCount n := Nat.length_toDigits_pos

theorem lt_pow_digitCount (n : ℕ) : n < 10 ^ digitCount n :=
  (Nat.length_toDigits_le_iff (by omega) (digitCount_pos n)).mp le_rfl

theorem pow_digitCount_le {n : ℕ} (hn : 0 < n) : 10 ^ (digitCount n - 1) ≤ n := by
  by_contra hlt
  have hpos := digitCount_pos n
  by_cases hone : digitCount n = 1
  · rw [hone] at hlt
    simp at hlt
    omega
  · have hle : digitCount n ≤ digitCount n - 1 :=
      (Nat.length_toDigits_le_iff (by omega) (by omega)).mpr (by omega)
    omega

/-- The power of ten at the first digit of a ratio is not larger than the ratio. -/
theorem zpow_firstPlace_le {r : Ratio} (hr : r.Sound) (hpos : 0 < r.num) :
    (10 : ℚ) ^ firstPlace r ≤ r.toRat := by
  have hden : (0 : ℚ) < r.den := by exact_mod_cast hr
  have hnum : (10 : ℚ) ^ (digitCount r.num - 1) ≤ r.num := by
    exact_mod_cast pow_digitCount_le hpos
  have hbound : (r.den : ℚ) ≤ 10 ^ digitCount r.den := by
    exact_mod_cast (lt_pow_digitCount r.den).le
  -- one place below the guess is always low enough
  have hlow : (10 : ℚ) ^ ((digitCount r.num : ℤ) - digitCount r.den - 1) ≤ r.toRat := by
    have hsplit : (10 : ℚ) ^ ((digitCount r.num : ℤ) - digitCount r.den - 1)
        = 10 ^ (digitCount r.num - 1) / 10 ^ digitCount r.den := by
      have hone := digitCount_pos r.num
      rw [show (digitCount r.num : ℤ) - digitCount r.den - 1
          = ((digitCount r.num - 1 : ℕ) : ℤ) - (digitCount r.den : ℤ) by omega,
        zpow_sub₀ (by norm_num), zpow_natCast, zpow_natCast]
    rw [hsplit]
    unfold Ratio.toRat
    gcongr
  have hone : (Ratio.scaled 10 1 ((digitCount r.num : ℤ) - digitCount r.den)).toRat
      = (10 : ℚ) ^ ((digitCount r.num : ℤ) - digitCount r.den) := by
    rw [Ratio.toRat_scaled]
    simp
  obtain ⟨-, -, hgt⟩ := Ratio.compare_spec
    (Ratio.sound_scaled (show 0 < 10 by norm_num) 1 ((digitCount r.num : ℤ) - digitCount r.den)) hr
  unfold firstPlace
  dsimp only
  split
  · exact hlow
  · rename_i hnot
    rw [hgt, hone, not_lt] at hnot
    exact hnot

/-! ## Rounding intervals -/

namespace Binary

variable {x : Binary} {q : ℚ}

/-- The lower end of the numbers that round to `x`. -/
def low (x : Binary) : ℚ :=
  (4 * x.mantissa - (if x.narrow then 1 else 2) : ℕ) * (2 : ℚ) ^ (x.exponent - 2)

/-- The upper end of the numbers that round to `x`. -/
def high (x : Binary) : ℚ := (4 * x.mantissa + 2 : ℕ) * (2 : ℚ) ^ (x.exponent - 2)

/-- Whether a rational number rounds to `x`: the ends of the interval do for an even mantissa. -/
def RoundsTo (x : Binary) (q : ℚ) : Prop :=
  (x.low < q ∨ x.low = q ∧ x.mantissa % 2 = 0) ∧ (q < x.high ∨ q = x.high ∧ x.mantissa % 2 = 0)

/-- The exact comparisons decide whether a ratio rounds to `x`. -/
theorem rounds_iff {r : Ratio} (hr : r.Sound) : x.rounds r = true ↔ x.RoundsTo r.toRat := by
  have two : 0 < 2 := by norm_num
  have atLow := Ratio.compare_passes_iff
    (Ratio.sound_scaled two (4 * x.mantissa - (if x.narrow then 1 else 2)) (x.exponent - 2)) hr
    (decide (x.mantissa % 2 = 0))
  have atHigh := Ratio.compare_passes_iff hr
    (Ratio.sound_scaled two (4 * x.mantissa + 2) (x.exponent - 2)) (decide (x.mantissa % 2 = 0))
  rw [Ratio.toRat_scaled, Nat.cast_ofNat, decide_eq_true_eq] at atLow atHigh
  exact Bool.and_eq_true_iff.trans (and_congr atLow atHigh)

theorem RoundsTo.low_le (h : x.RoundsTo q) : x.low ≤ q :=
  h.1.elim le_of_lt fun h => h.1.le

theorem RoundsTo.le_high (h : x.RoundsTo q) : q ≤ x.high :=
  h.2.elim le_of_lt fun h => h.1.le

theorem low_pos (hx : 0 < x.mantissa) : 0 < x.low := by
  have hnum : 0 < 4 * x.mantissa - (if x.narrow then 1 else 2) := by split <;> omega
  unfold low
  positivity

theorem low_lt_high (hx : 0 < x.mantissa) : x.low < x.high := by
  have hnum : 4 * x.mantissa - (if x.narrow then 1 else 2) < 4 * x.mantissa + 2 := by
    split <;> omega
  unfold low high
  gcongr

/-! ## The search -/

/-- A binary number with a mantissa of at most 53 bits. The neighbours are at different distances
only for the smallest mantissa of a binade. -/
structure Normal (x : Binary) : Prop where
  positive : 0 < x.mantissa
  bounded : x.mantissa < 2 ^ 53
  narrow : x.narrow = true → x.mantissa = 2 ^ 52

theorem toRat_value (x : Binary) : x.value.toRat = x.mantissa * (2 : ℚ) ^ x.exponent := by
  unfold value
  rw [Ratio.toRat_scaled, Nat.cast_ofNat]

theorem sound_value (x : Binary) : x.value.Sound := Ratio.sound_scaled (by norm_num) _ _

theorem num_value_pos (hx : 0 < x.mantissa) : 0 < x.value.num := by
  unfold value Ratio.scaled
  split
  · exact Nat.mul_pos hx (Nat.pow_pos (by norm_num))
  · exact hx

/-- Every candidate that is chosen rounds to the number. -/
theorem roundsTo_of_decimal? {count d : ℕ} {place : ℤ} (h : x.decimal? count = some (d, place)) :
    x.RoundsTo (d * (10 : ℚ) ^ place) := by
  suffices hr : x.rounds (Ratio.scaled 10 d place) = true by
    rw [rounds_iff (Ratio.sound_scaled (by norm_num) _ _), Ratio.toRat_scaled] at hr
    exact_mod_cast hr
  unfold decimal? at h
  dsimp only at h
  split at h
  · rename_i below above
    split at h
    all_goals
      simp only [Option.some.injEq, Prod.mk.injEq] at h
      obtain ⟨hd, hp⟩ := h
      subst hp
    · rwa [← hd]
    · rwa [← hd]
    · split at hd <;> rwa [← hd]
  · rename_i below above
    simp only [Option.some.injEq, Prod.mk.injEq] at h
    obtain ⟨rfl, rfl⟩ := h
    exact below
  · rename_i below above
    simp only [Option.some.injEq, Prod.mk.injEq] at h
    obtain ⟨rfl, rfl⟩ := h
    exact above
  · simp at h

/-- A grid that is finer than the rounding interval has a point next to the number that rounds to
it. -/
theorem roundsTo_of_fine {u : ℚ} {n : ℕ} (hx : 0 < x.mantissa)
    (hbelow : n * u ≤ x.value.toRat) (habove : x.value.toRat < (n + 1 : ℕ) * u)
    (hfine : u < x.high - x.low) : x.RoundsTo (n * u) ∨ x.RoundsTo ((n + 1 : ℕ) * u) := by
  have hpow : (0 : ℚ) < 2 ^ (x.exponent - 2) := by positivity
  have hvalue : x.value.toRat = (4 * x.mantissa : ℕ) * (2 : ℚ) ^ (x.exponent - 2) := by
    rw [toRat_value, zpow_sub₀ (by norm_num)]
    push_cast
    ring
  have hlow : x.low < x.value.toRat := by
    have hnum : 4 * x.mantissa - (if x.narrow then 1 else 2) < 4 * x.mantissa := by
      split <;> omega
    rw [hvalue]
    unfold low
    gcongr
  have hhigh : x.value.toRat < x.high := by
    rw [hvalue]
    unfold high
    gcongr
    omega
  by_cases hin : x.low < n * u
  · exact .inl ⟨.inl hin, .inl (hbelow.trans_lt hhigh)⟩
  · refine .inr ⟨.inl (hlow.trans habove), .inl ?_⟩
    push_cast
    linarith

/-- Seventeen digits always suffice. -/
theorem exists_decimal?_seventeen (hx : x.Normal) : ∃ d, x.decimal? 17 = some d := by
  have hpow : (0 : ℚ) < 2 ^ (x.exponent - 2) := by positivity
  have hbase : (2 : ℚ) ^ x.exponent = 4 * 2 ^ (x.exponent - 2) := by
    rw [zpow_sub₀ (by norm_num)]
    ring
  have hunit : (0 : ℚ) < 10 ^ (firstPlace x.value - 17 + 1) := by positivity
  -- the last place is at most the sixteenth below the first digit
  have hplace : (10 : ℚ) ^ (firstPlace x.value - 17 + 1) * 10 ^ 16
      ≤ x.mantissa * (4 * 2 ^ (x.exponent - 2)) := by
    calc (10 : ℚ) ^ (firstPlace x.value - 17 + 1) * 10 ^ 16
        = 10 ^ firstPlace x.value := by
          rw [show firstPlace x.value - 17 + 1 = firstPlace x.value - 16 by ring,
            zpow_sub₀ (by norm_num)]
          field_simp
      _ ≤ x.value.toRat := zpow_firstPlace_le (sound_value x) (num_value_pos hx.positive)
      _ = x.mantissa * (4 * 2 ^ (x.exponent - 2)) := by rw [toRat_value, hbase]
  have hfine : (10 : ℚ) ^ (firstPlace x.value - 17 + 1) < x.high - x.low := by
    unfold high low
    by_cases hn : x.narrow = true
    · rw [hx.narrow hn] at hplace ⊢
      rw [if_pos hn]
      norm_num at hplace ⊢
      linarith
    · have hle : 2 ≤ 4 * x.mantissa := by have := hx.positive; omega
      have hm : (x.mantissa : ℚ) < 2 ^ 53 := by exact_mod_cast hx.bounded
      rw [if_neg hn, Nat.cast_sub hle]
      push_cast
      nlinarith
  have hone : (Ratio.scaled 10 1 (firstPlace x.value - 17 + 1)).toRat
      = (10 : ℚ) ^ (firstPlace x.value - 17 + 1) := by
    rw [Ratio.toRat_scaled]
    simp
  obtain ⟨hbelow, habove⟩ := Ratio.floorDiv_spec (sound_value x)
    (Ratio.sound_scaled (show 0 < 10 by norm_num) 1 (firstPlace x.value - 17 + 1)) (by
      unfold Ratio.scaled
      split <;> simp)
  rw [hone] at hbelow habove
  have hnext := roundsTo_of_fine hx.positive hbelow habove hfine
  have hreads (n : ℕ) : x.rounds (Ratio.scaled 10 n (firstPlace x.value - 17 + 1)) = true
      ↔ x.RoundsTo (n * (10 : ℚ) ^ (firstPlace x.value - 17 + 1)) := by
    rw [rounds_iff (Ratio.sound_scaled (by norm_num) _ _), Ratio.toRat_scaled, Nat.cast_ofNat]
  rw [← hreads, ← hreads] at hnext
  unfold decimal?
  dsimp only [Nat.cast_ofNat]
  split
  · split <;> exact ⟨_, rfl⟩
  · exact ⟨_, rfl⟩
  · exact ⟨_, rfl⟩
  · rename_i hno hno'
    rcases hnext with h | h
    · exact absurd h (by simp [hno])
    · exact absurd h (by simp [hno'])

/-- The shortest decimal of a number rounds to it. -/
theorem roundsTo_shortest (hx : x.Normal) :
    x.RoundsTo (x.shortest.1 * (10 : ℚ) ^ x.shortest.2) := by
  obtain ⟨d, hd⟩ := exists_decimal?_seventeen hx
  obtain ⟨e, he⟩ : ∃ e, (List.range 17).findSome? (fun n => x.decimal? (n + 1)) = some e := by
    rw [← Option.isSome_iff_exists, List.findSome?_isSome_iff]
    exact ⟨16, by simp, by simp [hd]⟩
  obtain ⟨n, -, hn⟩ := List.exists_of_findSome?_eq_some he
  unfold shortest
  rw [he]
  exact roundsTo_of_decimal? hn

/-- The shortest decimal of a number has a digit. -/
theorem shortest_pos (hx : x.Normal) : 0 < x.shortest.1 := by
  have h := (low_pos hx.positive).trans_le (roundsTo_shortest hx).low_le
  by_contra hzero
  rw [Nat.eq_zero_of_not_pos hzero] at h
  simp at h

/-! ## Bit patterns -/

/-- The bit pattern of the magnitude of a finite number that is not zero. -/
def IsPattern (n : ℕ) : Prop := 0 < n ∧ n < 2047 * 2 ^ 52

variable {n m : ℕ}

theorem ofBits_least (h : n < 2 ^ 52) : ofBits n = ⟨n, -1074, false⟩ := by
  unfold ofBits
  simp only [Nat.pow_eq, Nat.div_eq_of_lt h, Nat.mod_eq_of_lt h, Nat.zero_mod, if_true]

theorem ofBits_binade {b f : ℕ} (hb : 0 < b) (hb' : b < 2 ^ 11) (hf : f < 2 ^ 52) :
    ofBits (2 ^ 52 * b + f) = ⟨2 ^ 52 + f, b - 1075, f = 0 && 1 < b⟩ := by
  have hdiv : (2 ^ 52 * b + f) / 2 ^ 52 = b := by
    rw [Nat.mul_add_div (by norm_num), Nat.div_eq_of_lt hf, Nat.add_zero]
  unfold ofBits
  simp only [Nat.pow_eq, hdiv, Nat.mul_add_mod, Nat.mod_eq_of_lt hf, Nat.mod_eq_of_lt hb', hb.ne',
    if_false]

/-- A bit pattern below the infinities is one of the least numbers or lies in a binade. -/
theorem IsPattern.cases (h : IsPattern n) :
    n < 2 ^ 52 ∨ ∃ b f, 0 < b ∧ b < 2047 ∧ f < 2 ^ 52 ∧ n = 2 ^ 52 * b + f := by
  obtain ⟨-, hn⟩ := h
  by_cases hlt : n < 2 ^ 52
  · exact .inl hlt
  · refine .inr ⟨n / 2 ^ 52, n % 2 ^ 52, ?_, ?_, Nat.mod_lt _ (by norm_num),
      (Nat.div_add_mod n (2 ^ 52)).symm⟩
    · omega
    · omega

theorem normal_ofBits (h : IsPattern n) : (ofBits n).Normal := by
  obtain hn | ⟨b, f, hb, hb', hf, rfl⟩ := h.cases
  · rw [ofBits_least hn]
    exact ⟨h.1, by show n < 2 ^ 53; omega, by simp⟩
  · rw [ofBits_binade hb (by omega) hf]
    refine ⟨by show 0 < 2 ^ 52 + f; omega, by show 2 ^ 52 + f < 2 ^ 53; omega, ?_⟩
    simp only [Bool.and_eq_true, decide_eq_true_eq]
    rintro ⟨rfl, -⟩
    rfl

theorem mantissa_ofBits_mod_two (h : IsPattern n) : (ofBits n).mantissa % 2 = n % 2 := by
  obtain hn | ⟨b, f, hb, hb', hf, rfl⟩ := h.cases
  · rw [ofBits_least hn]
  · rw [ofBits_binade hb (by omega) hf]
    show (2 ^ 52 + f) % 2 = (2 ^ 52 * b + f) % 2
    omega

/-- The intervals of two consecutive bit patterns meet. -/
theorem high_ofBits (h : IsPattern n) : (ofBits n).high = (ofBits (n + 1)).low := by
  obtain hn | ⟨b, f, hb, hb', hf, rfl⟩ := h.cases
  · rw [ofBits_least hn]
    by_cases hnext : n + 1 < 2 ^ 52
    · rw [ofBits_least hnext]
      unfold high low
      congr 2
    · obtain rfl : n = 2 ^ 52 - 1 := by omega
      rw [show 2 ^ 52 - 1 + 1 = 2 ^ 52 * 1 + 0 by norm_num,
        ofBits_binade (by norm_num) (by norm_num) (by norm_num)]
      unfold high low
      norm_num
  · rw [ofBits_binade hb (by omega) hf]
    by_cases hnext : f + 1 < 2 ^ 52
    · rw [Nat.add_assoc, ofBits_binade hb (by omega) hnext]
      unfold high low
      congr 2
    · -- the last number of a binade: the mantissa of its neighbour counts twice as much
      obtain rfl : f = 2 ^ 52 - 1 := by omega
      rw [show 2 ^ 52 * b + (2 ^ 52 - 1) + 1 = 2 ^ 52 * (b + 1) + 0 by omega,
        ofBits_binade (by omega) (by omega) (by norm_num)]
      unfold high low
      rw [show ((b + 1 : ℕ) : ℤ) - 1075 - 2 = (b : ℤ) - 1075 - 2 + 1 by push_cast; ring,
        zpow_add_one₀ (by norm_num)]
      have hnarrow : (decide (0 = 0) && decide (1 < b + 1)) = true := by simp [hb]
      rw [hnarrow]
      norm_num
      ring

/-- Further bit patterns have later intervals. -/
theorem high_ofBits_le (hn : IsPattern n) (hm : IsPattern m) (h : n < m) :
    (ofBits n).high ≤ (ofBits m).low := by
  induction m, h using Nat.le_induction with
  | base => exact (high_ofBits hn).le
  | succ k hk ih =>
    have hpos := hn.1
    have hpattern : IsPattern k := ⟨by omega, by have := hm.2; omega⟩
    have hwidth := low_lt_high (normal_ofBits hpattern).positive
    calc (ofBits n).high ≤ (ofBits k).low := ih hpattern
      _ ≤ (ofBits k).high := hwidth.le
      _ = (ofBits (k + 1)).low := high_ofBits hpattern

/-- No number rounds to two bit patterns: two intervals meet in one point at most, and of two
consecutive mantissas one is odd. -/
theorem pattern_unique {q : ℚ} (hn : IsPattern n) (hm : IsPattern m) (h : (ofBits n).RoundsTo q)
    (h' : (ofBits m).RoundsTo q) : n = m := by
  wlog hlt : n < m generalizing n m
  · by_contra hne
    exact hne (this hm hn h' h (by omega)).symm
  exfalso
  have hmeet : (ofBits n).high = q ∧ q = (ofBits m).low := by
    have hle := high_ofBits_le hn hm hlt
    have hup := h.le_high
    have hdown := h'.low_le
    constructor <;> linarith
  have heven : n % 2 = 0 := by
    rw [← mantissa_ofBits_mod_two hn]
    exact (h.2.resolve_left (by rw [hmeet.1]; exact lt_irrefl q)).2
  have heven' : m % 2 = 0 := by
    rw [← mantissa_ofBits_mod_two hm]
    exact (h'.1.resolve_left (by rw [← hmeet.2]; exact lt_irrefl q)).2
  -- the pattern after `n` is odd, so it lies between the two
  have hbetween : IsPattern (n + 1) := ⟨by omega, by have := hm.2; omega⟩
  have hwidth := low_lt_high (normal_ofBits hbetween).positive
  have hle := high_ofBits_le hbetween hm (by omega)
  have hmeets := high_ofBits hn
  linarith [hmeet.1, hmeet.2]

end Binary

end Screenplay.Decimal
