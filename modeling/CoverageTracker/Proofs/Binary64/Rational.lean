import CoverageTracker.Coverage
import CoverageTracker.Proofs.Binary64.Finite
import Mathlib.Algebra.Order.Round
import Mathlib.Data.Rat.Floor
set_option autoImplicit false

/-!
# Percentages as rational numbers

A value that is not NaN is compared, clamped and rounded as the rational number that it stands for
(`toRat`).  So a percentage that was clamped is the nearest number between zero and one hundred
(`toRat_clampPercent`), and `nearestByte` is the nearest whole number, halves going up, brought
between 0 and 255 (`nearestByte_eq`).  Infinities need no case of their own: their pattern goes on
where that of the finite values ends.
-/

namespace CoverageTracker

namespace Binary64

variable {x y : Binary64}

/-- The number that a value stands for.  An infinity stands for the number that comes after every
finite value. -/
def toRat (x : Binary64) : ℚ := x.scaled / unit

theorem unit_pos : (0 : ℚ) < unit := Nat.cast_pos.2 (pow2_pos 1074)

theorem toRat_zero : zero.toRat = 0 := by
  rw [toRat, show zero.scaled = 0 by decide +kernel, Int.cast_zero, zero_div]

theorem toRat_hundred : hundred.toRat = 100 := by
  rw [toRat, show hundred.scaled = 100 * unit by decide +kernel, Int.cast_mul, Int.cast_natCast,
    mul_div_cancel_right₀ _ unit_pos.ne', Int.cast_ofNat]

theorem isNaN_zero : zero.isNaN = false := by decide +kernel

theorem isNaN_hundred : hundred.isNaN = false := by decide +kernel

/-! ## Order -/

theorem lt_iff (hx : x.isNaN = false) (hy : y.isNaN = false) :
    x.lt y = true ↔ x.toRat < y.toRat := by
  rw [toRat, toRat, div_lt_div_iff_of_pos_right unit_pos, Int.cast_lt]
  simp [lt, hx, hy]

theorem lt_zero_iff (hx : x.isNaN = false) : x.lt zero = true ↔ x.toRat < 0 := by
  rw [lt_iff hx isNaN_zero, toRat_zero]

theorem hundred_lt_iff (hx : x.isNaN = false) : hundred.lt x = true ↔ 100 < x.toRat := by
  rw [lt_iff isNaN_hundred hx, toRat_hundred]

/-- An infinity is beyond zero or one hundred. -/
theorem toRat_of_isInfinite (h : x.isInfinite = true) :
    if x.isNegative then x.toRat < 0 else 100 < x.toRat := by
  simp only [isInfinite, Bool.and_eq_true, beq_iff_eq] at h
  have hmagnitude : x.magnitude = hiddenBit * pow2 2046 := by simp [magnitude, h.1, h.2]
  have hlarge : (100 : ℚ) < x.magnitude / unit := by
    rw [hmagnitude, lt_div_iff₀ unit_pos]
    exact_mod_cast (show 100 * unit < hiddenBit * pow2 2046 by decide +kernel)
  unfold toRat scaled
  split
  · rw [Int.cast_neg, Int.cast_natCast, neg_div]
    exact neg_neg_of_pos (lt_trans (by norm_num) hlarge)
  · rw [Int.cast_natCast]
    exact hlarge

/-! ## Clamping -/

/-- A percentage is a number between zero and one hundred. -/
theorem isPercent_iff : x.isPercent = true ↔ x.isNaN = false ∧ 0 ≤ x.toRat ∧ x.toRat ≤ 100 := by
  cases hx : x.isNaN with
  | true => simp [isPercent, hx]
  | false => simp [isPercent, hx, Bool.eq_false_iff, lt_zero_iff hx, hundred_lt_iff hx]

theorem clampPercent_of_neg (hx : x.isNaN = false) (h : x.toRat < 0) : x.clampPercent = zero := by
  rw [clampPercent, if_pos ((lt_zero_iff hx).2 h)]

theorem clampPercent_of_gt (hx : x.isNaN = false) (h : 100 < x.toRat) :
    x.clampPercent = hundred := by
  have hlow : ¬ x.toRat < 0 := not_lt.2 (le_trans (by norm_num) h.le)
  rw [clampPercent, if_neg (mt (lt_zero_iff hx).1 hlow), if_pos ((hundred_lt_iff hx).2 h)]

/-- A value between zero and one hundred is kept, negative zero too. -/
theorem clampPercent_of_mem (hx : x.isNaN = false) (hlow : 0 ≤ x.toRat) (hhigh : x.toRat ≤ 100) :
    x.clampPercent = x := by
  rw [clampPercent, if_neg (mt (lt_zero_iff hx).1 (not_lt.2 hlow)),
    if_neg (mt (hundred_lt_iff hx).1 (not_lt.2 hhigh))]

/-- Where a value can be with respect to the percentages. -/
theorem percent_cases (x : Binary64) :
    x.toRat < 0 ∨ (0 ≤ x.toRat ∧ x.toRat ≤ 100) ∨ 100 < x.toRat := by
  rcases lt_or_ge x.toRat 0 with hneg | hlow
  · exact .inl hneg
  · rcases le_or_gt x.toRat 100 with hhigh | hgt
    · exact .inr (.inl ⟨hlow, hhigh⟩)
    · exact .inr (.inr hgt)

/-- A percentage that was clamped is the nearest number between zero and one hundred. -/
theorem toRat_clampPercent (hx : x.isNaN = false) :
    x.clampPercent.toRat = max 0 (min 100 x.toRat) := by
  rcases x.percent_cases with hneg | ⟨hlow, hhigh⟩ | hgt
  · rw [clampPercent_of_neg hx hneg, toRat_zero, max_eq_left (le_trans (min_le_right _ _) hneg.le)]
  · rw [clampPercent_of_mem hx hlow hhigh, min_eq_right hhigh, max_eq_right hlow]
  · rw [clampPercent_of_gt hx hgt, toRat_hundred, min_eq_left hgt.le, max_eq_right (by norm_num)]

/-! ## Rounding -/

theorem round_mono {p q : ℚ} (h : p ≤ q) : round p ≤ round q := by
  rw [round_eq, round_eq]
  exact Int.floor_mono (add_le_add_left h _)

/-- Half a unit more, rounded down, is the nearest whole number. -/
theorem round_natCast_div (m : ℕ) : round ((m : ℚ) / unit) = ((2 * m + unit) / (2 * unit) : ℕ) := by
  have hhalf : (m : ℚ) / unit + 1 / 2 = ((2 * m + unit : ℕ) : ℚ) / ((2 * unit : ℕ) : ℚ) := by
    have hunit := unit_pos.ne'
    push_cast
    field_simp
  rw [round_eq, hhalf, Rat.floor_natCast_div_natCast, Int.natCast_ediv]

/-- The nearest whole number, halves going up, brought between 0 and 255. -/
theorem nearestByte_eq (hx : x.isNaN = false) :
    (x.nearestByte : ℤ) = max 0 (min 255 (round x.toRat)) := by
  unfold nearestByte
  cases hsign : x.isNegative with
  | true =>
    have hle : x.toRat ≤ 0 := by
      rw [toRat, scaled, if_pos hsign, Int.cast_neg, Int.cast_natCast, neg_div]
      exact neg_nonpos_of_nonneg (div_nonneg (Nat.cast_nonneg _) unit_pos.le)
    have hround : round x.toRat ≤ 0 := (round_mono hle).trans round_zero.le
    rw [if_pos (by simp), max_eq_left (le_trans (min_le_right _ _) hround), Nat.cast_zero]
  | false =>
    have hround : round x.toRat = ((2 * x.magnitude + unit) / (2 * unit) : ℕ) := by
      rw [← round_natCast_div, toRat, scaled, hsign, if_neg Bool.false_ne_true, Int.cast_natCast]
    rw [hx, hround, if_neg (by simp), Nat.cast_min, max_eq_right (by positivity)]
    rfl

/-- Between zero and one hundred nothing is cut off. -/
theorem nearestByte_eq_round (hx : x.isNaN = false) (hlow : 0 ≤ x.toRat) (hhigh : x.toRat ≤ 100) :
    (x.nearestByte : ℤ) = round x.toRat ∧ x.nearestByte ≤ 100 := by
  have hlow' : 0 ≤ round x.toRat := round_zero.ge.trans (round_mono hlow)
  have hhigh' : round x.toRat ≤ 100 := (round_mono hhigh).trans (round_ofNat 100).le
  have hbyte := nearestByte_eq hx
  omega

end Binary64

end CoverageTracker
