/-
Whole numbers as floating point numbers: the conversion rounds to the nearest number with 53 binary
digits, to the even one of two, and two conversions are equal exactly when they round to the same
number.
-/
import Screenplay.Number
import Screenplay.Proofs.Json.Numbers
import Mathlib.Data.Int.Order.Lemmas
import Mathlib.Tactic.Ring

namespace Screenplay.Decimal

/-! ## Rounding -/

/-- A quotient rounded to the nearest whole number, and halfway between two of them to the even
one. -/
def roundedQuotient (n d : ℕ) : ℕ :=
  if 2 * (n % d) < d then n / d
  else if 2 * (n % d) = d then n / d + n / d % 2
  else n / d + 1

/-- The distance between two numbers with 53 binary digits that are as large as `n`. -/
def spacing (n : ℕ) : ℕ := 2 ^ (n.log2 - 52)

/-- The number with 53 binary digits that is nearest to a whole number. -/
def nearest (n : ℕ) : ℕ := roundedQuotient n (spacing n) * spacing n

/-- The number with 53 binary digits that is nearest to a whole number with a sign. -/
def nearestInt (n : ℤ) : ℤ := n.sign * nearest n.natAbs

variable {n m d k : ℕ}

theorem div_le_roundedQuotient (n d : ℕ) : n / d ≤ roundedQuotient n d := by
  unfold roundedQuotient
  split
  · exact le_rfl
  split
  · exact Nat.le_add_right _ _
  · exact Nat.le_succ _

theorem roundedQuotient_le (n d : ℕ) : roundedQuotient n d ≤ n / d + 1 := by
  unfold roundedQuotient
  split
  · exact Nat.le_succ _
  split
  · omega
  · exact le_rfl

/-- Rounding moves a number by at most half of the divisor. -/
theorem roundedQuotient_close (hd : 0 < d) (n : ℕ) :
    2 * n ≤ 2 * (roundedQuotient n d * d) + d ∧ 2 * (roundedQuotient n d * d) ≤ 2 * n + d := by
  have hn : n / d * d + n % d = n := Nat.div_add_mod' n d
  have hr : n % d < d := Nat.mod_lt n hd
  unfold roundedQuotient
  split
  · omega
  split
  · obtain h | h : n / d % 2 = 0 ∨ n / d % 2 = 1 := by omega
    · rw [h, Nat.add_zero]
      omega
    · rw [h, Nat.add_mul, Nat.one_mul]
      omega
  · rw [Nat.add_mul, Nat.one_mul]
    omega

theorem roundedQuotient_mul (hk : 0 < k) (n d : ℕ) :
    roundedQuotient (n * k) (d * k) = roundedQuotient n d := by
  have rest : n * k % (d * k) = n % d * k := Nat.mul_mod_mul_right k n d
  have twice : 2 * (n % d * k) = 2 * (n % d) * k := (Nat.mul_assoc ..).symm
  unfold roundedQuotient
  simp only [Nat.mul_div_mul_right n d hk, rest, twice, Nat.mul_lt_mul_right hk,
    Nat.mul_left_inj hk.ne']

theorem roundedQuotient_of_dvd (hd : 0 < d) (h : d ∣ n) : roundedQuotient n d = n / d := by
  unfold roundedQuotient
  rw [Nat.mod_eq_zero_of_dvd h, Nat.mul_zero, if_pos hd]

theorem spacing_pos (n : ℕ) : 0 < spacing n := Nat.two_pow_pos _

/-- The nearest number is nowhere further away than half of the distance between its neighbours. -/
theorem nearest_close (n : ℕ) :
    2 * n ≤ 2 * nearest n + spacing n ∧ 2 * nearest n ≤ 2 * n + spacing n :=
  roundedQuotient_close (spacing_pos n) n

theorem nearest_of_dvd (h : spacing n ∣ n) : nearest n = n := by
  unfold nearest
  rw [roundedQuotient_of_dvd (spacing_pos n) h, Nat.div_mul_cancel h]

/-- Whole numbers with at most 53 binary digits are not rounded. -/
theorem nearest_of_lt (h : n < 2 ^ 53) : nearest n = n := by
  have hlog : n.log2 < 53 := by
    obtain rfl | h0 := Nat.eq_zero_or_pos n
    · decide
    · exact (Nat.log2_lt h0.ne').mpr h
  have hone : spacing n = 1 := by
    unfold spacing
    rw [Nat.sub_eq_zero_of_le (by omega), Nat.pow_zero]
  exact nearest_of_dvd (hone ▸ Nat.one_dvd n)

theorem pow_log2_le (h : 0 < n) : 2 ^ n.log2 ≤ n := Nat.log2_self_le h.ne'

theorem two_pow_spacing (h : 52 ≤ n.log2) : 2 ^ 52 * spacing n = 2 ^ n.log2 := by
  unfold spacing
  rw [← Nat.pow_add, Nat.add_sub_cancel' h]

/-- A whole number with 53 binary digits or more stays so. -/
theorem le_nearest (h : 2 ^ 52 ≤ n) : 2 ^ n.log2 ≤ nearest n := by
  have h0 : 0 < n := (Nat.two_pow_pos 52).trans_le h
  have hlog : 52 ≤ n.log2 := (Nat.le_log2 h0.ne').mpr h
  have hquot : 2 ^ 52 ≤ n / spacing n := by
    rw [Nat.le_div_iff_mul_le (spacing_pos n), two_pow_spacing hlog]
    exact pow_log2_le h0
  rw [← two_pow_spacing hlog]
  exact Nat.mul_le_mul_right _ (hquot.trans (div_le_roundedQuotient ..))

/-- A whole number that is half of a distance below a power of two is not rounded up to it. -/
theorem nearest_lt_pow {w : ℕ} (hk : k = w + 54) (h : n + 2 ^ w < 2 ^ k) : nearest n < 2 ^ k := by
  have below : n < 2 ^ k := (Nat.le_add_right ..).trans_lt h
  have coarse : spacing n ≤ 2 * 2 ^ w := by
    rw [← Nat.pow_succ']
    have hlog : n.log2 < k := by
      obtain rfl | h0 := Nat.eq_zero_or_pos n
      · rw [hk]
        exact Nat.succ_pos _
      · exact (Nat.log2_lt h0.ne').mpr below
    exact Nat.pow_le_pow_right (by decide) (by omega)
  have close := (nearest_close n).2
  omega

theorem floatLimit_eq : floatLimit = 2 ^ 1024 - 2 ^ 970 := by
  unfold floatLimit
  -- the powers are not to be evaluated
  generalize 1024 = a
  generalize 970 = b
  rfl

/-- Below the limit of floating point numbers no whole number is rounded out of their range. -/
theorem nearest_lt (h : n < floatLimit) : nearest n < 2 ^ 1024 := by
  rw [floatLimit_eq] at h
  exact nearest_lt_pow (rfl : 1024 = 970 + 54) (Nat.add_lt_of_lt_sub h)

theorem log2_mul_two_pow (h : 0 < n) (k : ℕ) : (n * 2 ^ k).log2 = n.log2 + k := by
  rw [Nat.log2_eq_iff (Nat.mul_pos h (Nat.two_pow_pos k)).ne', Nat.pow_add, Nat.add_right_comm,
    Nat.pow_add]
  exact ⟨Nat.mul_le_mul_right _ (pow_log2_le h),
    (Nat.mul_lt_mul_right (Nat.two_pow_pos k)).mpr Nat.lt_log2_self⟩

/-! ## Shifted mantissas -/

section Shift

open Float.Model Float.Model.UnpackedFloat

/-- Shifting an exact mantissa leaves its quotient, and of the remainder whether it reaches one half
and whether it is neither nothing nor one half. -/
theorem exact_shiftRight (m k : ℕ) :
    (⟨m, false, false⟩ : ExtendedMantissa) >>> k
      = ⟨m / 2 ^ k, decide (2 ^ k ≤ 2 * (m % 2 ^ k)), decide (2 * (m % 2 ^ k) % 2 ^ k ≠ 0)⟩ := by
  induction k with
  | zero =>
    show (⟨m, false, false⟩ : ExtendedMantissa) = _
    rw [Nat.pow_zero, Nat.div_one, Nat.mod_one]
    rfl
  | succ k ih =>
    have step : (⟨m, false, false⟩ : ExtendedMantissa) >>> (k + 1)
        = ((⟨m, false, false⟩ : ExtendedMantissa) >>> k).shiftRightOne := rfl
    have low : m % 2 ^ k < 2 ^ k := Nat.mod_lt _ (Nat.two_pow_pos k)
    have whole : m / 2 ^ k / 2 = m / 2 ^ (k + 1) := by rw [Nat.div_div_eq_div_mul, Nat.pow_succ]
    have double : 2 ^ (k + 1) = 2 * 2 ^ k := Nat.pow_succ'
    have rest : 2 * (m % 2 ^ (k + 1)) % 2 ^ (k + 1) = 2 * (m % 2 ^ k) := by
      rw [double, Nat.mul_mod_mul_left, Nat.mod_mul_left_mod]
    -- the bit shifted out last tells whether the remainder reaches one half
    have round : (m / 2 ^ k % 2 != 0) = decide (2 ^ (k + 1) ≤ 2 * (m % 2 ^ (k + 1))) := by
      rw [Nat.mod_pow_succ, double]
      obtain hb | hb : m / 2 ^ k % 2 = 0 ∨ m / 2 ^ k % 2 = 1 := by omega
      · rw [hb, decide_eq_false (by omega)]
        rfl
      · rw [hb, decide_eq_true (by omega)]
        rfl
    -- all bits shifted out before are gathered, so nothing of the remainder is lost
    have sticky : (decide (2 ^ k ≤ 2 * (m % 2 ^ k)) || decide (2 * (m % 2 ^ k) % 2 ^ k ≠ 0))
        = decide (2 * (m % 2 ^ k) ≠ 0) := by
      by_cases h : 2 ^ k ≤ 2 * (m % 2 ^ k)
      · have hne : 2 * (m % 2 ^ k) ≠ 0 := ((Nat.two_pow_pos k).trans_le h).ne'
        rw [decide_eq_true h, decide_eq_true hne, Bool.true_or]
      · rw [decide_eq_false h, Bool.false_or, Nat.mod_eq_of_lt (by omega)]
    rw [step, ih]
    show ExtendedMantissa.mk (m / 2 ^ k / 2) (m / 2 ^ k % 2 != 0) (_ || _) = _
    rw [whole, round, sticky, rest]

/-- A shifted mantissa is rounded like the quotient. -/
theorem roundedMantissa_shiftRight (m k : ℕ) :
    ((⟨m, false, false⟩ : ExtendedMantissa) >>> k).roundedMantissa = roundedQuotient m (2 ^ k) := by
  have low : m % 2 ^ k < 2 ^ k := Nat.mod_lt _ (Nat.two_pow_pos k)
  rw [exact_shiftRight]
  unfold ExtendedMantissa.roundedMantissa roundedQuotient
  by_cases below : 2 * (m % 2 ^ k) < 2 ^ k
  · rw [if_pos below, decide_eq_false (Nat.not_le.mpr below)]
    cases decide (2 * (m % 2 ^ k) % 2 ^ k ≠ 0) <;> rfl
  · rw [if_neg below, decide_eq_true (Nat.not_lt.mp below)]
    have rest : 2 * (m % 2 ^ k) % 2 ^ k = 2 * (m % 2 ^ k) - 2 ^ k := by
      rw [Nat.mod_eq_sub_mod (Nat.not_lt.mp below), Nat.mod_eq_of_lt (by omega)]
    rw [rest]
    by_cases half : 2 * (m % 2 ^ k) = 2 ^ k
    · rw [if_pos half, decide_eq_false (by omega)]
      rfl
    · rw [if_neg half, decide_eq_true (by omega)]
      rfl

/-- A mantissa with 53 binary digits or more is shifted until it has 53 of them. -/
theorem shiftToTargetExponent_eq {e : ℤ} (hm : 2 ^ 52 ≤ m) (he : -1022 ≤ e + m.log2) :
    shiftToTargetExponent .binary64 m e .exact
      = ((⟨m, false, false⟩ : ExtendedMantissa) >>> (m.log2 - 52), e + (m.log2 - 52 : ℕ)) := by
  have hlog : 52 ≤ m.log2 := (Nat.le_log2 (by omega)).mpr hm
  have target : Format.targetExponent .binary64 (totalExponent m e) = e + (m.log2 - 52 : ℕ) := by
    show max ((m.log2 : ℤ) + 1 + e - 53) (-1074) = _
    omega
  have amount : (e + (m.log2 - 52 : ℕ) - e).toNat = m.log2 - 52 := by omega
  unfold shiftToTargetExponent shiftToExponent
  rw [target]
  dsimp only
  rw [amount]
  rfl

end Shift

/-! ## Numbers with 53 binary digits -/

section Forms

open Float.Model Float.Model.UnpackedFloat

/-- The floating point numbers that stand for whole numbers: the two zeros, and the others with
exactly 53 binary digits, so that they can be compared digit by digit. -/
inductive Stands : UnpackedFloat → ℤ → Prop
  | zero (sign : Sign) : Stands (.zero sign) 0
  | finite (sign : Sign) {m k v : ℕ} (hm : 0 < m) (low : 2 ^ 52 ≤ m) (high : m < 2 ^ 53)
      (value : m * 2 ^ k = v * 2 ^ 52) : Stands (.finite sign m (k - 52) hm) (sign.apply v)

/-- The first 53 binary digits of a number that has so many. -/
theorem leading_bounds (hm : 2 ^ 52 ≤ m) :
    2 ^ 52 ≤ m / 2 ^ (m.log2 - 52) ∧ m / 2 ^ (m.log2 - 52) < 2 ^ 53 := by
  have hpos : 0 < m := (Nat.two_pow_pos 52).trans_le hm
  have hlog : 52 ≤ m.log2 := (Nat.le_log2 hpos.ne').mpr hm
  constructor
  · rw [Nat.le_div_iff_mul_le (Nat.two_pow_pos _), ← Nat.pow_add, Nat.add_sub_cancel' hlog]
    exact pow_log2_le hpos
  · have digits : 53 + (m.log2 - 52) = m.log2 + 1 := by omega
    rw [Nat.div_lt_iff_lt_mul (Nat.two_pow_pos _), ← Nat.pow_add, digits]
    exact Nat.lt_log2_self

/-- A number with 53 binary digits, or the next power of two, loses nothing when it is cut to 53
digits. -/
theorem dvd_of_le (h0 : 0 < n) (h : n ≤ 2 ^ 53) : 2 ^ (n.log2 - 52) ∣ n := by
  obtain rfl | hlt := h.eq_or_lt
  · rw [Nat.log2_two_pow]
    exact pow_dvd_pow 2 (by decide)
  · have hlog : n.log2 < 53 := (Nat.log2_lt h0.ne').mpr hlt
    rw [Nat.sub_eq_zero_of_le (by omega), Nat.pow_zero]
    exact Nat.one_dvd n

/-- Rounding a number with enough binary digits gives one that stands for the rounded quotient. -/
theorem stands_roundWithAccuracy (sign : Sign) {e : ℤ} {v : ℕ} (hm : 2 ^ 52 ≤ m)
    (he : e + (m.log2 - 52 : ℕ) = k - 52)
    (value : roundedQuotient m (2 ^ (m.log2 - 52)) * 2 ^ k = v * 2 ^ 52) :
    Stands (roundWithAccuracy .binary64 sign m e .exact) (sign.apply v) := by
  obtain ⟨low, high⟩ := leading_bounds hm
  have hlog : 52 ≤ m.log2 := (Nat.le_log2 (by omega)).mpr hm
  unfold roundWithAccuracy
  rw [shiftToTargetExponent_eq hm (by omega)]
  dsimp only
  rw [roundedMantissa_shiftRight, he]
  -- rounding may have added a binary digit, which the second shift takes away again
  have enough := low.trans (div_le_roundedQuotient m (2 ^ (m.log2 - 52)))
  have most := (roundedQuotient_le m (2 ^ (m.log2 - 52))).trans high
  generalize roundedQuotient m (2 ^ (m.log2 - 52)) = r at *
  have hpos : 0 < r := (Nat.two_pow_pos 52).trans_le enough
  obtain ⟨low', high'⟩ := leading_bounds enough
  have hne : r / 2 ^ (r.log2 - 52) ≠ 0 := by omega
  have exponent : (k : ℤ) - 52 + (r.log2 - 52 : ℕ) = (k + (r.log2 - 52) : ℕ) - 52 := by
    push_cast
    ring
  rw [shiftToTargetExponent_eq enough (by omega)]
  dsimp only
  rw [exact_shiftRight]
  dsimp only
  rw [dif_neg hne, exponent]
  apply Stands.finite sign _ low' high'
  rw [Nat.pow_add, Nat.mul_comm (2 ^ k), ← Nat.mul_assoc, Nat.div_mul_cancel (dvd_of_le hpos most)]
  exact value

/-! ### Bit patterns -/

theorem unpackSign_packComponents {spec : Format} (sign : Sign) (exponent mantissa) :
    unpackSign (packComponents spec sign exponent mantissa) = sign.toBitVec := by
  ext i hi
  obtain rfl : i = 0 := by omega
  delta unpackSign
  simp [packComponents, BitVec.getLsbD_eq_getElem, BitVec.getLsbD_append, BitVec.getElem_append]

theorem natAbs_apply (sign : Sign) (v : ℕ) : (sign.apply v).natAbs = v := by
  cases sign with
  | negative => exact (Int.natAbs_neg v).trans (Int.natAbs_natCast v)
  | positive => exact Int.natAbs_natCast v

theorem ofBitVec_toBitVec (sign : Sign) : Sign.ofBitVec sign.toBitVec = sign := by
  cases sign <;> rfl

/-- The first of the 53 binary digits is not kept in the bit pattern. -/
theorem toNat_leading (low : 2 ^ 52 ≤ m) (high : m < 2 ^ 53) :
    (1#1 ++ BitVec.ofNat 52 m).toNat = m := by
  rw [BitVec.toNat_append, BitVec.toNat_ofNat, BitVec.toNat_ofNat,
    ← Nat.shiftLeft_add_eq_or_of_lt (Nat.mod_lt _ (Nat.two_pow_pos 52)), Nat.shiftLeft_eq]
  omega

/-- A bit pattern whose exponent field is neither the least nor the greatest one. -/
theorem unpack_packComponents (sign : Sign) {exponent : BitVec 11} {mantissa : BitVec 52}
    (greatest : exponent.toNat ≠ 2047) (least : exponent.toNat ≠ 0)
    (hpos : 0 < (1#1 ++ mantissa).toNat) :
    UnpackedFloat.unpack .binary64 (packComponents .binary64 sign exponent mantissa)
      = .finite sign (1#1 ++ mantissa).toNat (exponent.toNat - 1075) hpos := by
  have hgreatest : exponent ≠ -1#11 := by
    rintro rfl
    exact greatest (by decide)
  have hleast : exponent ≠ 0#11 := by
    rintro rfl
    exact least (by decide)
  unfold UnpackedFloat.unpack
  dsimp only
  rw [if_neg (by rw [unpackExponent_packComponents]; exact hgreatest),
    if_neg (by rw [unpackExponent_packComponents]; exact hleast), UnpackedFloat.finite.injEq]
  refine ⟨?_, ?_, ?_⟩
  · rw [unpackSign_packComponents, ofBitVec_toBitVec]
  · rw [unpackMantissa_packComponents]
  · rw [unpackExponent_packComponents]
    rfl

/-- The exponent of a number in range is not too large for a bit pattern. -/
theorem exponent_lt {v w : ℕ} (low : 2 ^ 52 ≤ m) (value : m * 2 ^ k = v * 2 ^ 52) (h : v < 2 ^ w) :
    k < w := by
  rw [← Nat.pow_lt_pow_iff_right (by decide : 1 < 2)]
  have scaled : 2 ^ 52 * 2 ^ k ≤ 2 ^ 52 * v := by
    rw [Nat.mul_comm _ v, ← value]
    exact Nat.mul_le_mul_right _ low
  exact (Nat.le_of_mul_le_mul_left scaled (Nat.two_pow_pos 52)).trans_lt h

/-- A bit pattern keeps the numbers in range that stand for whole numbers. -/
theorem unpack_pack {u : UnpackedFloat} {a : ℤ} (h : Stands u a) (hlt : a.natAbs < 2 ^ 1024) :
    (Float.Model.pack u).unpack = u := by
  show UnpackedFloat.unpack .binary64 (UnpackedFloat.pack .binary64 u) = u
  cases h with
  | zero sign => cases sign <;> rfl
  | finite sign hm low high value =>
    rename_i m k v
    rw [natAbs_apply] at hlt
    have hk : k < 1024 := exponent_lt low value hlt
    have hlog : m.log2 = 52 := (Nat.log2_eq_iff hm.ne').mpr ⟨low, high⟩
    have biased : ((k : ℤ) - 52 + (Format.binary64.exponentBias : ℕ)
        + (Format.binary64.mantissaBitsWithoutImplicit : ℕ)).toNat = k + 1023 := by
      show ((k : ℤ) - 52 + (1023 : ℕ) + (52 : ℕ)).toNat = k + 1023
      omega
    have packed : UnpackedFloat.pack .binary64 (.finite sign m (k - 52) hm)
        = packComponents .binary64 sign (BitVec.ofNat 11 (k + 1023)) (BitVec.ofNat 52 m) := by
      unfold UnpackedFloat.pack
      dsimp only
      rw [biased, if_neg (by omega), if_pos (by rw [hlog]; rfl)]
    have field : (BitVec.ofNat 11 (k + 1023)).toNat = k + 1023 := by
      rw [BitVec.toNat_ofNat, Nat.mod_eq_of_lt (by omega)]
    have whole := toNat_leading low high
    rw [packed, unpack_packComponents sign (by omega) (by omega) (hm.trans_eq whole.symm)]
    have exponent : ((BitVec.ofNat 11 (k + 1023)).toNat : ℤ) - 1075 = k - 52 := by omega
    rw [UnpackedFloat.finite.injEq]
    exact ⟨rfl, whole, exponent⟩

/-! ### Conversion -/

/-- The number one as it stands in the table of powers of ten. -/
theorem unpack_one :
    (getElem Float.exactlyRepresentablePowersOfTen 0 (by decide)).toModel.unpack
      = .finite .positive (2 ^ 52) (-52) (Nat.two_pow_pos 52) := by
  rfl

theorem apply_mul_positive (sign : Sign) : sign * .positive = sign := by
  cases sign <;> rfl

/-- Multiplying by one changes nothing. -/
theorem stands_mul_one {u : UnpackedFloat} {a : ℤ} (h : Stands u a) :
    Stands (mul .binary64 u (.finite .positive (2 ^ 52) (-52) (Nat.two_pow_pos 52))) a := by
  cases h with
  | zero sign => exact .zero _
  | finite sign hm low high value =>
    rename_i m k v
    have hlog : (m * 2 ^ 52).log2 - 52 = 52 := by
      rw [log2_mul_two_pow hm, (Nat.log2_eq_iff hm.ne').mpr ⟨low, high⟩]
    show Stands (roundWithAccuracy .binary64 (sign * .positive) (m * 2 ^ 52) (k - 52 + -52) .exact) _
    rw [apply_mul_positive]
    apply stands_roundWithAccuracy sign (k := k)
    · exact Nat.le_mul_of_pos_left _ hm
    · rw [hlog]
      omega
    · rw [hlog, roundedQuotient_of_dvd (Nat.two_pow_pos 52) (Nat.dvd_mul_left ..),
        Nat.mul_div_cancel _ (Nat.two_pow_pos 52)]
      exact value

/-- A whole number with at most 53 binary digits is converted as it is. -/
theorem stands_ofNat (h0 : 0 < n) (h : n < 2 ^ 53) : Stands (UnpackedFloat.ofNat .binary64 n) n := by
  have hlog : n.log2 < 53 := (Nat.log2_lt h0.ne').mpr h
  have positive : compare (n : ℤ) 0 = .gt := compare_gt_iff_gt.mpr (by omega)
  have target : Format.targetExponent .binary64 (totalExponent n 0) = (n.log2 : ℤ) - 52 := by
    show max ((n.log2 : ℤ) + 1 + 0 - 53) (-1074) = _
    omega
  have amount : (0 - ((n.log2 : ℤ) - 52)).toNat = 52 - n.log2 := by omega
  have filled : (n * 2 ^ (52 - n.log2)).log2 - 52 = 0 := by
    rw [log2_mul_two_pow h0]
    omega
  show Stands (UnpackedFloat.normalize .binary64 n 0 .positive) n
  unfold UnpackedFloat.normalize
  rw [positive]
  dsimp only
  unfold UnpackedFloat.round decreaseExponent
  rw [Int.toNat_natCast, target]
  dsimp only
  rw [amount, Nat.shiftLeft_eq]
  apply stands_roundWithAccuracy .positive (k := n.log2)
  · calc 2 ^ 52 = 2 ^ n.log2 * 2 ^ (52 - n.log2) := by rw [← Nat.pow_add, Nat.add_sub_cancel' (by omega)]
      _ ≤ n * 2 ^ (52 - n.log2) := Nat.mul_le_mul_right _ (pow_log2_le h0)
  · rw [filled]
    omega
  · rw [filled, Nat.pow_zero, roundedQuotient_of_dvd Nat.one_pos (Nat.one_dvd _), Nat.div_one,
      Nat.mul_assoc, ← Nat.pow_add, Nat.sub_add_cancel (by omega)]

/-- A whole number with more binary digits is rounded. -/
theorem stands_ofScientific (h : 2 ^ 53 ≤ n) :
    Stands (UnpackedFloat.ofScientific .binary64 n 0) (nearest n) := by
  have h0 : 0 < n := (Nat.two_pow_pos 53).trans_le h
  have hlog : 53 ≤ n.log2 := (Nat.le_log2 h0.ne').mpr h
  have excess : (n * 2 ^ 53).log2 - 52 = (n.log2 - 52) + 53 := by
    rw [log2_mul_two_pow h0]
    omega
  have product : UnpackedFloat.ofScientific .binary64 n 0
      = roundWithAccuracy .binary64 .positive (n * 2 ^ 53) (-53) .exact := by
    unfold UnpackedFloat.ofScientific
    have near : ¬ (0 : ℤ) < -(2 ^ 11 + n.log2) := by omega
    rw [dif_neg h0.ne', if_neg (by decide), if_neg near, if_pos le_rfl]
    show roundWithAccuracy .binary64 .positive ((n <<< 53) * 1) (-53) .exact = _
    rw [Nat.mul_one, Nat.shiftLeft_eq]
  rw [product]
  apply stands_roundWithAccuracy .positive (k := n.log2)
  · exact (by decide : 2 ^ 52 ≤ 2 ^ 53).trans (Nat.le_mul_of_pos_left _ h0)
  · rw [excess]
    omega
  · rw [excess, Nat.pow_add, roundedQuotient_mul (Nat.two_pow_pos 53)]
    unfold nearest spacing
    rw [Nat.mul_assoc, ← Nat.pow_add, Nat.sub_add_cancel (by omega)]

/-- The conversion of a whole number in range gives the nearest number. -/
theorem stands_floatOfNat (h : n < floatLimit) :
    Stands (Float.ofNat n).toModel.unpack (nearest n) := by
  have range : ((nearest n : ℕ) : ℤ).natAbs < 2 ^ 1024 := nearest_lt h
  obtain rfl | h0 := Nat.eq_zero_or_pos n
  · exact .zero .positive
  -- a small number is converted as a word and is exact; a large one is rounded by its digits
  by_cases hsmall : n < 2 ^ 53
  · rw [nearest_of_lt hsmall] at range ⊢
    have word : n.toUInt64.toNat = n := UInt64.toNat_ofNat_of_lt' (hsmall.trans (by decide))
    have converted : Stands (n.toUInt64.toFloat).toModel.unpack n := by
      show Stands (Float.Model.pack (UnpackedFloat.ofNat .binary64 n.toUInt64.toNat)).unpack n
      rw [word, unpack_pack (stands_ofNat h0 hsmall) range]
      exact stands_ofNat h0 hsmall
    have product := stands_mul_one converted
    have quick : Float.ofNat n
        = n.toUInt64.toFloat * getElem Float.exactlyRepresentablePowersOfTen 0 (by decide) := by
      show Float.ofScientific n false 0 = _
      unfold Float.ofScientific
      rw [dif_pos ⟨hsmall, by decide⟩]
      rfl
    rw [quick]
    show Stands (Float.Model.pack (mul .binary64 _ _)).unpack n
    rw [unpack_one, unpack_pack product range]
    exact product
  · have rounded := stands_ofScientific (Nat.not_lt.mp hsmall)
    have slow : Float.ofNat n = .ofModel (.ofScientific n 0) := by
      show Float.ofScientific n false 0 = _
      unfold Float.ofScientific
      rw [dif_neg fun h => hsmall h.1]
      rfl
    rw [slow]
    show Stands (Float.Model.pack (UnpackedFloat.ofScientific .binary64 n 0)).unpack _
    rw [unpack_pack rounded range]
    exact rounded

theorem apply_neg (sign : Sign) (v : ℤ) : (-sign).apply v = -sign.apply v := by
  cases sign with
  | negative => exact (neg_neg v).symm
  | positive => rfl

theorem Stands.neg {u : UnpackedFloat} {a : ℤ} (h : Stands u a) : Stands u.neg (-a) := by
  cases h with
  | zero sign =>
    rw [neg_zero]
    exact .zero (-sign)
  | finite sign hm low high value =>
    rw [← apply_neg]
    exact .finite (-sign) hm low high value

theorem nearestInt_natCast (n : ℕ) : nearestInt n = nearest n := by
  unfold nearestInt
  rw [Int.natAbs_natCast]
  obtain rfl | h := Nat.eq_zero_or_pos n
  · rfl
  · rw [Int.sign_eq_one_of_pos (by omega), one_mul]

theorem nearestInt_neg (n : ℤ) : nearestInt (-n) = -nearestInt n := by
  unfold nearestInt
  rw [Int.sign_neg, Int.natAbs_neg, neg_mul]

/-- The conversion of a whole number with a sign gives the nearest number. -/
theorem stands_floatOfInt {a : ℤ} (h : a.natAbs < floatLimit) :
    Stands (Float.ofInt a).toModel.unpack (nearestInt a) := by
  cases a with
  | ofNat n =>
    have converted := stands_floatOfNat h
    rw [← nearestInt_natCast] at converted
    exact converted
  | negSucc n =>
    have range : (-((nearest (n + 1) : ℕ) : ℤ)).natAbs < 2 ^ 1024 := by
      rw [Int.natAbs_neg, Int.natAbs_natCast]
      exact nearest_lt h
    have converted : Stands (Float.ofNat (n + 1)).toModel.unpack.neg (-(nearest (n + 1) : ℕ)) :=
      (stands_floatOfNat h).neg
    rw [Int.negSucc_eq, nearestInt_neg, ← Nat.cast_succ, nearestInt_natCast]
    show Stands (Float.Model.pack (Float.ofNat (n + 1)).toModel.unpack.neg).unpack _
    rw [unpack_pack converted range]
    exact converted

/-! ### Comparison -/

/-- Numbers with exactly 53 binary digits are equal when their digits and exponents are. -/
theorem value_eq_iff {m m' k k' v v' : ℕ} (low : 2 ^ 52 ≤ m) (high : m < 2 ^ 53)
    (low' : 2 ^ 52 ≤ m') (high' : m' < 2 ^ 53) (value : m * 2 ^ k = v * 2 ^ 52)
    (value' : m' * 2 ^ k' = v' * 2 ^ 52) : v = v' ↔ k = k' ∧ m = m' := by
  -- one digit more makes a number larger, whatever the digits are
  have larger {m m' k k' : ℕ} (high : m < 2 ^ 53) (low' : 2 ^ 52 ≤ m') (h : k < k') :
      m * 2 ^ k < m' * 2 ^ k' :=
    calc m * 2 ^ k < 2 ^ 53 * 2 ^ k := (Nat.mul_lt_mul_right (Nat.two_pow_pos k)).mpr high
      _ = 2 ^ 52 * 2 ^ (k + 1) := by rw [← Nat.pow_add, ← Nat.pow_add, ← Nat.add_assoc, Nat.add_right_comm]
      _ ≤ m' * 2 ^ k' := Nat.mul_le_mul low' (Nat.pow_le_pow_right (by decide) h)
  constructor
  · rintro rfl
    rw [← value'] at value
    obtain h | rfl | h := lt_trichotomy k k'
    · exact absurd value (larger high low' h).ne
    · exact ⟨rfl, Nat.eq_of_mul_eq_mul_right (Nat.two_pow_pos k) value⟩
    · exact absurd value (larger high' low h).ne'
  · rintro ⟨rfl, rfl⟩
    exact Nat.eq_of_mul_eq_mul_right (Nat.two_pow_pos 52) (value.symm.trans value')

theorem value_pos {v : ℕ} (hm : 0 < m) (value : m * 2 ^ k = v * 2 ^ 52) : 0 < v :=
  Nat.pos_of_mul_pos_right (value ▸ Nat.mul_pos hm (Nat.two_pow_pos k))

theorem apply_ne_zero (sign : Sign) {v : ℕ} (h : 0 < v) : sign.apply v ≠ 0 := by
  rw [← Int.natAbs_ne_zero, natAbs_apply]
  exact h.ne'

theorem apply_eq_apply_iff {sign sign' : Sign} {v v' : ℕ} (h : 0 < v) (h' : 0 < v') :
    sign.apply v = sign'.apply v' ↔ sign = sign' ∧ v = v' := by
  constructor
  · intro same
    have size := congrArg Int.natAbs same
    rw [natAbs_apply, natAbs_apply] at size
    refine ⟨?_, size⟩
    cases sign <;> cases sign' <;> simp only [Sign.apply] at same <;> first | rfl | omega
  · rintro ⟨rfl, rfl⟩
    rfl

theorem compare_finite {sign sign' : Sign} {m m' : ℕ} {e e' : ℤ} (hm : 0 < m) (hm' : 0 < m') :
    UnpackedFloat.compare (.finite sign m e hm) (.finite sign' m' e' hm') = some .eq
      ↔ sign = sign' ∧ e = e' ∧ m = m' := by
  have fields : (compare e e').then (compare m m') = .eq ↔ e = e' ∧ m = m' := by
    rw [Ordering.then_eq_eq, compare_eq_iff_eq, compare_eq_iff_eq]
  cases sign with
  | negative =>
    cases sign' with
    | negative =>
      show some ((compare e e').then (compare m m')).swap = some .eq ↔ _
      rw [Option.some_inj, Ordering.swap_eq_eq, fields]
      exact (and_iff_right rfl).symm
    | positive => exact iff_of_false (by rintro ⟨⟩) (by rintro ⟨⟨⟩, -⟩)
  | positive =>
    cases sign' with
    | negative => exact iff_of_false (by rintro ⟨⟩) (by rintro ⟨⟨⟩, -⟩)
    | positive =>
      show some ((compare e e').then (compare m m')) = some .eq ↔ _
      rw [Option.some_inj, fields]
      exact (and_iff_right rfl).symm

/-- Two numbers that stand for whole numbers compare equal exactly when these are equal. -/
theorem Stands.beq_iff {u w : UnpackedFloat} {a b : ℤ} (hu : Stands u a) (hw : Stands w b) :
    u.beq w = true ↔ a = b := by
  unfold UnpackedFloat.beq
  rw [beq_iff_eq]
  cases hu with
  | zero sign =>
    cases hw with
    | zero sign' => exact iff_of_true rfl rfl
    | finite sign' hm low high value =>
      refine iff_of_false ?_ (apply_ne_zero sign' (value_pos hm value)).symm
      cases sign' <;> rintro ⟨⟩
  | finite sign hm low high value =>
    cases hw with
    | zero sign' =>
      refine iff_of_false ?_ (apply_ne_zero sign (value_pos hm value))
      cases sign <;> rintro ⟨⟩
    | finite sign' hm' low' high' value' =>
      rw [compare_finite, apply_eq_apply_iff (value_pos hm value) (value_pos hm' value'),
        value_eq_iff low high low' high' value value', sub_left_inj, Nat.cast_inj]

/-! ### Which numbers are told apart -/

theorem natAbs_nearestInt (a : ℤ) : (nearestInt a).natAbs = nearest a.natAbs := by
  obtain ⟨n, rfl | rfl⟩ := a.eq_nat_or_neg
  · rw [nearestInt_natCast, Int.natAbs_natCast, Int.natAbs_natCast]
  · rw [nearestInt_neg, nearestInt_natCast, Int.natAbs_neg, Int.natAbs_neg, Int.natAbs_natCast,
      Int.natAbs_natCast]

theorem nearestInt_of_lt {a : ℤ} (h : a.natAbs < 2 ^ 53) : nearestInt a = a := by
  unfold nearestInt
  rw [nearest_of_lt h, Int.sign_mul_natAbs]

/-- A whole number with at most 53 binary digits is not nearest to any other one. -/
theorem nearestInt_inj {a b : ℤ} (ha : a.natAbs < 2 ^ 53) (h : nearestInt a = nearestInt b) : a = b := by
  rw [nearestInt_of_lt ha] at h
  by_cases hb : b.natAbs < 2 ^ 53
  · rwa [nearestInt_of_lt hb] at h
  · have large : 2 ^ 53 ≤ b.natAbs := Nat.not_lt.mp hb
    have digits : 53 ≤ b.natAbs.log2 := (Nat.le_log2 (by omega)).mpr large
    have enough : 2 ^ 53 ≤ nearest b.natAbs :=
      (Nat.pow_le_pow_right (by decide) digits).trans (le_nearest (by omega))
    rw [h, natAbs_nearestInt] at ha
    omega

theorem nearestInt_close (a : ℤ) : 2 * (a - nearestInt a).natAbs ≤ spacing a.natAbs := by
  obtain ⟨n, rfl | rfl⟩ := a.eq_nat_or_neg
  · obtain ⟨above, below⟩ := nearest_close n
    rw [nearestInt_natCast, Int.natAbs_natCast]
    omega
  · obtain ⟨above, below⟩ := nearest_close n
    rw [nearestInt_neg, nearestInt_natCast, Int.natAbs_neg, Int.natAbs_natCast]
    omega

/-- Two whole numbers with the same nearest number are at most one distance of neighbours apart. -/
theorem sub_le_of_nearestInt_eq {a b : ℤ} (h : nearestInt a = nearestInt b) :
    2 * (a - b).natAbs ≤ spacing a.natAbs + spacing b.natAbs := by
  have ha := nearestInt_close a
  have hb := nearestInt_close b
  rw [h] at ha
  omega

/-! ### Comparison of conversions -/

/-- Two whole numbers in range are converted to equal floating point numbers exactly when the nearest
numbers with 53 binary digits are the same. -/
theorem floatOfInt_beq_iff {a b : ℤ} (ha : a.natAbs < floatLimit) (hb : b.natAbs < floatLimit) :
    (Float.ofInt a == Float.ofInt b) = true ↔ nearestInt a = nearestInt b :=
  (stands_floatOfInt ha).beq_iff (stands_floatOfInt hb)

end Forms

end Screenplay.Decimal
