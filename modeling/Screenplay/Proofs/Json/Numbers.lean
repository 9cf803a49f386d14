/-
The texts of numbers in documents: different numbers have different texts, and the text of a floating
point number is never that of a whole number.
-/
import Screenplay.Json
import Screenplay.Proofs.Decimal.Reading
import Screenplay.Proofs.Decimal.Rounding

namespace Screenplay.Json

open Decimal

/-! ## Bit patterns of floating point numbers -/

/-- The bit pattern of a floating point number without its sign. -/
def magnitude (x : Float) : ℕ := x.toBits.toNat % 2 ^ 63

/-- Whether the sign of a floating point number is set. -/
def Negative (x : Float) : Prop := 2 ^ 63 ≤ x.toBits.toNat

instance (x : Float) : Decidable (Negative x) := inferInstanceAs (Decidable (2 ^ 63 ≤ _))

/-- The bit pattern of the infinities. -/
def infinite : ℕ := 2047 * 2 ^ 52

/-- The bit pattern of the undefined number. -/
def undefined : ℕ := infinite + 2 ^ 51

section Fields

open Float.Model Float.Model.UnpackedFloat

variable (b : BitVec Format.binary64.numBits)

theorem toNat_unpackExponent : (unpackExponent b).toNat = b.toNat / 2 ^ 52 % 2 ^ 11 := by
  simp [unpackExponent, Nat.shiftRight_eq_div_pow]

theorem toNat_unpackMantissa : (unpackMantissa b).toNat = b.toNat % 2 ^ 52 := by
  simp [unpackMantissa]

theorem toNat_unpackSign : (unpackSign b).toNat = b.toNat / 2 ^ 63 := by
  have hlt : b.toNat < 2 ^ 64 := b.isLt
  delta unpackSign
  simp [Nat.shiftRight_eq_div_pow]
  omega

theorem unpackExponent_eq_iff : unpackExponent b = -1#_ ↔ b.toNat / 2 ^ 52 % 2 ^ 11 = 2047 := by
  rw [← BitVec.toNat_inj, toNat_unpackExponent]
  rfl

theorem unpackMantissa_eq_iff : unpackMantissa b = 0#_ ↔ b.toNat % 2 ^ 52 = 0 := by
  rw [← BitVec.toNat_inj, toNat_unpackMantissa]
  rfl

theorem ofBitVec_unpackSign :
    Sign.ofBitVec (unpackSign b) = if 2 ^ 63 ≤ b.toNat then .negative else .positive := by
  have hlt : b.toNat < 2 ^ 64 := b.isLt
  have hzero : unpackSign b = 0#1 ↔ ¬ 2 ^ 63 ≤ b.toNat := by
    rw [← BitVec.toNat_inj, toNat_unpackSign]
    simp
  unfold Sign.ofBitVec
  by_cases hs : 2 ^ 63 ≤ b.toNat
  · rw [if_pos hs, if_neg fun h => hzero.mp h hs]
  · rw [if_neg hs, if_pos (hzero.mpr hs)]

theorem unpack_infinity (hexp : b.toNat / 2 ^ 52 % 2 ^ 11 = 2047) (hman : b.toNat % 2 ^ 52 = 0) :
    UnpackedFloat.unpack Format.binary64 b
      = .infinity (if 2 ^ 63 ≤ b.toNat then .negative else .positive) := by
  unfold UnpackedFloat.unpack
  dsimp only
  rw [if_pos ((unpackExponent_eq_iff b).mpr hexp), if_pos ((unpackMantissa_eq_iff b).mpr hman),
    ofBitVec_unpackSign]

theorem unpack_undefined (hexp : b.toNat / 2 ^ 52 % 2 ^ 11 = 2047) (hman : b.toNat % 2 ^ 52 ≠ 0) :
    UnpackedFloat.unpack Format.binary64 b = .notANumber := by
  unfold UnpackedFloat.unpack
  dsimp only
  rw [if_pos ((unpackExponent_eq_iff b).mpr hexp),
    if_neg fun h => hman ((unpackMantissa_eq_iff b).mp h)]

theorem unpack_finite (hexp : b.toNat / 2 ^ 52 % 2 ^ 11 ≠ 2047) :
    (UnpackedFloat.unpack Format.binary64 b).isFinite = true := by
  unfold UnpackedFloat.unpack
  dsimp only
  rw [if_neg fun h => hexp ((unpackExponent_eq_iff b).mp h)]
  by_cases hzero : unpackExponent b = 0#_
  · rw [if_pos hzero]
    by_cases hman : unpackMantissa b = 0#_
    · rw [dif_pos hman]
      rfl
    · rw [dif_neg hman]
      rfl
  · rw [if_neg hzero]
    rfl

theorem sign_positive_iff {p : Prop} [Decidable p] :
    (if p then Sign.negative else .positive) = .positive ↔ ¬ p := by
  by_cases hp : p
  · rw [if_pos hp]
    exact iff_of_false (by rintro ⟨⟩) (not_not_intro hp)
  · rw [if_neg hp]
    exact iff_of_true rfl hp

end Fields

/-- Of the two infinities, one is positive. -/
theorem pos_iff_of_infinity {x : Float} {sign : Float.Model.UnpackedFloat.Sign}
    (h : x.toModel.unpack = .infinity sign) : 0 < x ↔ sign = .positive := by
  have hzero : (0 : Float).toModel.unpack = .zero .positive := by rfl
  have order : 0 < x ↔ Float.Model.UnpackedFloat.lt (0 : Float).toModel.unpack x.toModel.unpack = true :=
    decide_eq_true_iff
  rw [order, hzero, h]
  cases sign with
  | positive => exact iff_of_true rfl rfl
  | negative => exact iff_of_false (by decide) (by rintro ⟨⟩)

/-- A bit pattern belongs to the undefined number, to one of the infinities, or is below theirs. -/
inductive Shape (x : Float) : Prop
  | undefined (h : x.isNaN = true) (hm : magnitude x = undefined) (hs : ¬ Negative x)
  | infinite (h : x.isNaN = false) (hi : x.isInf = true) (hm : magnitude x = infinite)
      (hs : 0 < x ↔ ¬ Negative x)
  | finite (h : x.isNaN = false) (hi : x.isInf = false) (hm : magnitude x < infinite)

theorem shape (x : Float) : Shape x := by
  obtain ⟨⟨bits, valid⟩⟩ := x
  have hlt : bits.toBitVec.toNat < 2 ^ 64 := bits.toBitVec.isLt
  by_cases hexp : bits.toBitVec.toNat / 2 ^ 52 % 2 ^ 11 = 2047
  · by_cases hman : bits.toBitVec.toNat % 2 ^ 52 = 0
    · have unpacked := unpack_infinity bits.toBitVec hexp hman
      refine .infinite ?_ ?_ ?_ ?_
      · exact congrArg Float.Model.UnpackedFloat.isNaN unpacked
      · exact congrArg Float.Model.UnpackedFloat.isInf unpacked
      · show bits.toBitVec.toNat % 2 ^ 63 = 2047 * 2 ^ 52
        omega
      · have order : 0 < (⟨⟨bits, valid⟩⟩ : Float) ↔ _ := pos_iff_of_infinity unpacked
        exact order.trans sign_positive_iff
    · have unpacked := unpack_undefined bits.toBitVec hexp hman
      -- no other bit pattern of the undefined number is valid
      have canonical := valid.eq_packedNaN ((unpackExponent_eq_iff _).mpr hexp)
        fun h => hman ((unpackMantissa_eq_iff _).mp h)
      have hbits : bits.toBitVec.toNat = 2047 * 2 ^ 52 + 2 ^ 51 := by
        rw [canonical]
        rfl
      refine .undefined (congrArg Float.Model.UnpackedFloat.isNaN unpacked) ?_ ?_
      · show bits.toBitVec.toNat % 2 ^ 63 = 2047 * 2 ^ 52 + 2 ^ 51
        omega
      · show ¬ 2 ^ 63 ≤ bits.toBitVec.toNat
        omega
  · have unpacked := unpack_finite bits.toBitVec hexp
    have parts : (Float.Model.UnpackedFloat.unpack .binary64 bits.toBitVec).isNaN = false ∧
        (Float.Model.UnpackedFloat.unpack .binary64 bits.toBitVec).isInf = false := by
      cases hu : Float.Model.UnpackedFloat.unpack .binary64 bits.toBitVec with
      | infinity | notANumber =>
        rw [hu] at unpacked
        cases unpacked
      | zero | finite => exact ⟨rfl, rfl⟩
    refine .finite parts.1 parts.2 ?_
    show bits.toBitVec.toNat % 2 ^ 63 < 2047 * 2 ^ 52
    omega

/-- A floating point number is known by its sign and the rest of its bit pattern. -/
theorem eq_of_magnitude {x y : Float} (hm : magnitude x = magnitude y) (hs : Negative x ↔ Negative y) :
    x = y := by
  have hx : x.toBits.toNat < 2 ^ 64 := x.toBits.toNat_lt
  have hy : y.toBits.toNat < 2 ^ 64 := y.toBits.toNat_lt
  have bits : x.toBits = y.toBits := by
    unfold magnitude Negative at *
    apply UInt64.toNat_inj.mp
    omega
  obtain ⟨⟨bx, vx⟩⟩ := x
  obtain ⟨⟨b, vy⟩⟩ := y
  obtain rfl : bx = b := bits
  rfl

/-! ## Texts of magnitudes -/

/-- The text of a bit pattern without its sign. -/
def magnitudeChars (n : ℕ) : List Char :=
  if n = undefined then "NaN".toList
  else if n = infinite then "Infinity".toList
  else if n = 0 then ['0', '.', '0']
  else layout Value.floatStyle (Binary.ofBits n).shortest.1 (Binary.ofBits n).shortest.2

theorem ofBits_mod (n : ℕ) : Binary.ofBits (n % 2 ^ 63) = Binary.ofBits n := by
  have fraction : n % 2 ^ 63 % 2 ^ 52 = n % 2 ^ 52 := by omega
  have biased : n % 2 ^ 63 / 2 ^ 52 % 2 ^ 11 = n / 2 ^ 52 % 2 ^ 11 := by omega
  unfold Binary.ofBits
  simp only [Nat.pow_eq, fraction, biased]

/-- The text of a floating point number is its sign and the text of its magnitude. -/
theorem floatChars_eq (x : Float) :
    floatChars x = (if Negative x then ['-'] else []) ++ magnitudeChars (magnitude x) := by
  unfold floatChars magnitudeChars
  -- the sign is written before an amount or an infinity, and not before what is no number
  cases shape x with
  | undefined h hm hs => rw [if_pos h, if_neg hs, if_pos hm, List.nil_append]
  | infinite h hi hm hs =>
    have hne : magnitude x ≠ undefined := by rw [hm]; decide
    rw [h, if_neg Bool.false_ne_true, if_pos hi, if_neg hne, if_pos hm]
    by_cases hneg : Negative x
    · rw [if_neg fun h0 => hs.mp h0 hneg, if_pos hneg]
      rfl
    · rw [if_pos (hs.mpr hneg), if_neg hneg]
      rfl
  | finite h hi hm =>
    have hne : magnitude x ≠ undefined := by
      have : infinite < undefined := by decide
      omega
    have sign : (if x.toBits.toNat < 2 ^ 63 then ([] : List Char) else ['-'])
        = if Negative x then ['-'] else [] := by
      by_cases hneg : Negative x
      · rw [if_pos hneg, if_neg (not_lt.mpr hneg)]
      · rw [if_neg hneg, if_pos (not_le.mp hneg)]
    unfold Decimal.text
    simp only [h, hi, Bool.false_eq_true, if_false, Nat.pow_eq, hne, hm.ne, sign]
    rw [← ofBits_mod]
    show String.toList (if magnitude x = 0 then _ else _) = _
    split
    · rw [String.toList_ofList]
    · rw [String.toList_ofList]
      rfl

variable {n m : ℕ}

theorem isPattern_of_lt (h : n < infinite) (h0 : n ≠ 0) : Binary.IsPattern n :=
  ⟨Nat.pos_of_ne_zero h0, h⟩

theorem magnitudeChars_of_lt (h : n < infinite) :
    magnitudeChars n = if n = 0 then ['0', '.', '0']
      else layout Value.floatStyle (Binary.ofBits n).shortest.1 (Binary.ofBits n).shortest.2 := by
  have hne : n ≠ undefined := by
    have : infinite < undefined := by decide
    omega
  rw [magnitudeChars, if_neg hne, if_neg h.ne]

/-- The amount of the text of a magnitude rounds to it. -/
theorem roundsTo_amount (h : n < infinite) (h0 : n ≠ 0) :
    (Binary.ofBits n).RoundsTo (amount (magnitudeChars n)) := by
  have hx := Binary.normal_ofBits (isPattern_of_lt h h0)
  rw [magnitudeChars_of_lt h, if_neg h0, amount_layout _ (Binary.shortest_pos hx)]
  exact Binary.roundsTo_shortest hx

theorem amount_pos (h : n < infinite) (h0 : n ≠ 0) : 0 < amount (magnitudeChars n) := by
  have hx := Binary.normal_ofBits (isPattern_of_lt h h0)
  exact (Binary.low_pos hx.positive).trans_le (roundsTo_amount h h0).low_le

theorem amount_zero : amount (magnitudeChars 0) = 0 := by
  have text : magnitudeChars 0 = ['0'] ++ '.' :: ['0'] := by decide
  rw [text, amount_fixed (by decide), fixedAmount_point (by decide)]
  have digits : numeral (['0'] ++ ['0']) = 0 := by decide
  rw [digits]
  simp

/-- The first character of a magnitude tells the finite ones from the others. -/
theorem magnitudeChars_cons (h : n ≤ infinite ∨ n = undefined) :
    ∃ c cs, magnitudeChars n = c :: cs ∧
      (c = 'N' ∧ n = undefined ∨ c = 'I' ∧ n = infinite ∨ c.isDigit = true ∧ n < infinite) := by
  by_cases hu : n = undefined
  · subst hu
    exact ⟨_, _, rfl, .inl ⟨rfl, rfl⟩⟩
  by_cases hi : n = infinite
  · subst hi
    exact ⟨_, _, rfl, .inr (.inl ⟨rfl, rfl⟩)⟩
  have hlt : n < infinite := by omega
  rw [magnitudeChars_of_lt hlt]
  split
  · exact ⟨_, _, rfl, .inr (.inr ⟨by decide, hlt⟩)⟩
  · rename_i h0
    have hx := Binary.normal_ofBits (isPattern_of_lt hlt h0)
    obtain ⟨c, cs, hc, digit⟩ := layout_cons Value.floatStyle (Binary.shortest_pos hx)
      (Binary.ofBits n).shortest.2
    exact ⟨c, cs, hc, .inr (.inr ⟨digit, hlt⟩)⟩

/-- Different magnitudes have different texts. -/
theorem magnitudeChars_inj (hn : n ≤ infinite ∨ n = undefined) (hm : m ≤ infinite ∨ m = undefined)
    (h : magnitudeChars n = magnitudeChars m) : n = m := by
  obtain ⟨c, cs, hc, kind⟩ := magnitudeChars_cons hn
  obtain ⟨d, ds, hd, kind'⟩ := magnitudeChars_cons hm
  obtain ⟨rfl, rfl⟩ : c = d ∧ cs = ds := by
    rw [hc, hd] at h
    exact List.cons_eq_cons.mp h
  -- the first character tells words and amounts apart, and an amount is read back from its digits
  obtain ⟨rfl, rfl⟩ | ⟨rfl, rfl⟩ | ⟨digit, hlt⟩ := kind
  · obtain ⟨-, rfl⟩ | ⟨h, -⟩ | ⟨h, -⟩ := kind'
    · rfl
    · exact absurd h (by decide)
    · exact absurd h (by decide)
  · obtain ⟨h, -⟩ | ⟨-, rfl⟩ | ⟨h, -⟩ := kind'
    · exact absurd h (by decide)
    · rfl
    · exact absurd h (by decide)
  · obtain ⟨rfl, -⟩ | ⟨rfl, -⟩ | ⟨-, hlt'⟩ := kind'
    · exact absurd digit (by decide)
    · exact absurd digit (by decide)
    · have same := congrArg amount h
      by_cases h0 : n = 0
      · by_cases h0' : m = 0
        · rw [h0, h0']
        · have := amount_pos hlt' h0'
          rw [← same, h0, amount_zero] at this
          exact absurd this (lt_irrefl 0)
      · by_cases h0' : m = 0
        · have := amount_pos hlt h0
          rw [same, h0', amount_zero] at this
          exact absurd this (lt_irrefl 0)
        · refine Binary.pattern_unique (isPattern_of_lt hlt h0) (isPattern_of_lt hlt' h0')
            (roundsTo_amount hlt h0) ?_
          rw [same]
          exact roundsTo_amount hlt' h0'

theorem magnitude_le (x : Float) : magnitude x ≤ infinite ∨ magnitude x = undefined := by
  cases shape x with
  | undefined _ hm _ => exact .inr hm
  | infinite _ _ hm _ => exact .inl hm.le
  | finite _ _ hm => exact .inl hm.le

/-- Different floating point numbers have different texts. -/
theorem floatChars_inj {x y : Float} (h : floatChars x = floatChars y) : x = y := by
  rw [floatChars_eq, floatChars_eq] at h
  obtain ⟨c, cs, hc, kind⟩ := magnitudeChars_cons (magnitude_le x)
  obtain ⟨d, ds, hd, kind'⟩ := magnitudeChars_cons (magnitude_le y)
  have hcne : c ≠ '-' := by
    rintro rfl
    revert kind
    simp
  have hdne : d ≠ '-' := by
    rintro rfl
    revert kind'
    simp
  by_cases hx : Negative x
  · by_cases hy : Negative y
    · rw [if_pos hx, if_pos hy] at h
      have hm := magnitudeChars_inj (magnitude_le x) (magnitude_le y) (List.append_cancel_left h)
      exact eq_of_magnitude hm (by simp [hx, hy])
    · rw [if_pos hx, if_neg hy, hd] at h
      exact absurd (List.cons_eq_cons.mp h).1.symm hdne
  · by_cases hy : Negative y
    · rw [if_neg hx, if_pos hy, hc] at h
      exact absurd (List.cons_eq_cons.mp h).1 hcne
    · rw [if_neg hx, if_neg hy] at h
      have hm := magnitudeChars_inj (magnitude_le x) (magnitude_le y) h
      exact eq_of_magnitude hm (by simp [hx, hy])

/-! ## Whole numbers and the characters of numbers -/

/-- The characters in texts of numbers that are no digits. -/
def numberLetters : List Char := ['.', 'e', '+', '-', 'N', 'a', 'I', 'n', 'f', 'i', 't', 'y']

theorem mem_numberLetters {cs : List Char} (hcs : cs.all (numberLetters.contains ·) = true) {c : Char}
    (h : c ∈ cs) : c ∈ numberLetters :=
  List.contains_iff_mem.mp (List.all_eq_true.mp hcs c h)

theorem mem_floatChars {x : Float} {c : Char} (h : c ∈ floatChars x) :
    c.isDigit = true ∨ c ∈ numberLetters := by
  rw [floatChars_eq, List.mem_append] at h
  obtain h | h := h
  · split at h
    · cases List.mem_singleton.mp h
      exact .inr (by decide)
    · cases h
  · unfold magnitudeChars at h
    split at h
    · exact .inr (mem_numberLetters (by decide) h)
    split at h
    · exact .inr (mem_numberLetters (by decide) h)
    split at h
    · simp only [List.mem_cons, List.not_mem_nil, or_false] at h
      obtain rfl | rfl | rfl := h
      · exact .inl (by decide)
      · exact .inr (by decide)
      · exact .inl (by decide)
    · exact (mem_layout h).imp_right fun h => mem_numberLetters (by decide) h

/-- The text of a floating point number has a character that no text of a whole number has. -/
theorem exists_mark (x : Float) : ∃ c ∈ floatChars x, c.isDigit = false ∧ c ≠ '-' := by
  suffices h : ∃ c ∈ magnitudeChars (magnitude x), c.isDigit = false ∧ c ≠ '-' by
    obtain ⟨c, hc, mark⟩ := h
    refine ⟨c, ?_, mark⟩
    rw [floatChars_eq]
    exact List.mem_append_right _ hc
  unfold magnitudeChars
  split
  · exact ⟨'N', by decide, by decide, by decide⟩
  split
  · exact ⟨'I', by decide, by decide, by decide⟩
  split
  · exact ⟨'.', by decide, by decide, by decide⟩
  · obtain h | h := exists_mark_layout Value.floatStyle (Binary.ofBits (magnitude x)).shortest.1
      (Binary.ofBits (magnitude x)).shortest.2
    · exact ⟨'.', h, by decide, by decide⟩
    · exact ⟨'e', h, by decide, by decide⟩

theorem intChars_eq (n : ℤ) :
    (toString n).toList = (if 0 ≤ n then [] else ['-']) ++ Nat.toDigits 10 n.natAbs := by
  rw [Int.toString_eq_repr, Int.repr_eq_if]
  by_cases h : 0 ≤ n
  · have same : n.toNat = n.natAbs := by omega
    rw [if_pos h, if_pos h, Nat.toList_repr, List.nil_append, same]
  · have same : (-n).toNat = n.natAbs := by omega
    rw [if_neg h, if_neg h, String.toList_append, Nat.toList_repr, same]
    rfl

theorem mem_intChars {n : ℤ} {c : Char} (h : c ∈ (toString n).toList) : c.isDigit = true ∨ c = '-' := by
  rw [intChars_eq, List.mem_append] at h
  obtain h | h := h
  · split at h
    · cases h
    · exact .inr (List.mem_singleton.mp h)
  · exact .inl (Nat.isDigit_of_mem_toDigits (by decide) (by decide) h)

/-- Different whole numbers have different texts. -/
theorem intChars_inj {n m : ℤ} (h : (toString n).toList = (toString m).toList) : n = m := by
  have digits {a b : ℕ} (h : Nat.toDigits 10 a = Nat.toDigits 10 b) : a = b := by
    rw [← numeral_toDigits a, h, numeral_toDigits]
  have signed {a b : ℕ} (h : Nat.toDigits 10 a = '-' :: Nat.toDigits 10 b) : False := by
    have hmem : '-' ∈ Nat.toDigits 10 a := h ▸ List.mem_cons_self
    have hdigit := Nat.isDigit_of_mem_toDigits (by decide) (by decide) hmem
    exact absurd hdigit (by decide)
  rw [intChars_eq, intChars_eq] at h
  by_cases hn : 0 ≤ n
  · by_cases hm : 0 ≤ m
    · rw [if_pos hn, if_pos hm] at h
      have := digits h
      omega
    · rw [if_pos hn, if_neg hm] at h
      exact (signed h).elim
  · by_cases hm : 0 ≤ m
    · rw [if_neg hn, if_pos hm] at h
      exact (signed h.symm).elim
    · rw [if_neg hn, if_neg hm] at h
      have := digits (List.append_cancel_left h)
      omega

end Screenplay.Json
