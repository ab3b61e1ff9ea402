import CoverageTracker.Binary64
import CoverageTracker.Data.Value
import Mathlib.Data.Nat.Digits.Defs
import Mathlib.Tactic.SplitIfs
set_option autoImplicit false

/-!
# Numbers that stay finite

A quotient below the 1023rd power of two rounds to a finite value: its significand has at most 53
bits before rounding, so that rounding can only carry it up to the 53rd power of two
(`rounded_le`), and the shift leaves the pattern below that of infinity (`ofRatio_isFinite`).  Whole
numbers of 64 bits are far below that bound (`ofInt_isFinite`).
-/

namespace CoverageTracker.Binary64

/-! ## Powers of two -/

theorem pow2_pos (n : Nat) : 0 < pow2 n := Nat.pow_pos (by decide)

theorem pow2_add (m n : Nat) : pow2 (m + n) = pow2 m * pow2 n := Nat.pow_add 2 m n

theorem pow2_le_pow2 {m n : Nat} (h : m ≤ n) : pow2 m ≤ pow2 n :=
  Nat.pow_le_pow_right (by decide) h

theorem lt_pow2_log2 (n : Nat) : n < pow2 (n.log2 + 1) := Nat.lt_log2_self

theorem log2_lt_of_lt_pow2 {n k : Nat} (hn : n ≠ 0) (h : n < pow2 k) : n.log2 < k :=
  (Nat.log2_lt hn).2 h

/-! ## Rounding -/

theorem roundTiesToEven_le (num den : Nat) : roundTiesToEven num den ≤ num / den + 1 := by
  simp only [roundTiesToEven]
  split_ifs <;> omega

/-- Rounding carries a shifted significand up to the 53rd power of two at most. -/
theorem rounded_le (t den : Nat) :
    roundTiesToEven t (den * pow2 (if t / den < 2 * hiddenBit then 0 else (t / den).log2 - 52)) ≤
      2 * hiddenBit := by
  refine (roundTiesToEven_le _ _).trans ?_
  rw [← Nat.div_div_eq_div_mul]
  generalize t / den = floor
  split
  case isTrue hsmall =>
    rw [show pow2 0 = 1 from rfl, Nat.div_one]
    omega
  case isFalse hlarge =>
    have hbits : floor < pow2 (53 + (floor.log2 - 52)) :=
      Nat.lt_of_lt_of_le (lt_pow2_log2 floor) (pow2_le_pow2 (by omega))
    rw [pow2_add] at hbits
    exact (Nat.div_lt_iff_lt_mul (pow2_pos _)).2 hbits

theorem isFinite_of_pattern {n : Nat} (h : n < 2047 * hiddenBit) :
    isFinite ⟨UInt64.ofNat n⟩ = true := by
  have hbits : n < 0x8000000000000000 := Nat.lt_trans h (by decide)
  rw [isFinite, bne_iff_ne, exponent, unsigned, signWeight, UInt64.toNat_ofNat']
  rw [Nat.mod_eq_of_lt (b := 2 ^ 64) (by omega), Nat.mod_eq_of_lt hbits]
  exact Nat.ne_of_lt ((Nat.div_lt_iff_lt_mul (by decide)).2 h)

/-- The quotient in units, rounded down. -/
theorem units_lt {num den : Nat} (h : num < den * pow2 1023) : num * unit / den < pow2 (1023 + 1074) := by
  have hden : 0 < den := by
    by_contra hden
    rw [Nat.eq_zero_of_not_pos hden, Nat.zero_mul] at h
    exact Nat.not_lt_zero _ h
  refine (Nat.div_lt_iff_lt_mul hden).2 ?_
  rw [unit, pow2_add, Nat.mul_comm _ den, ← Nat.mul_assoc]
  exact Nat.mul_lt_mul_of_pos_right h (pow2_pos 1074)

theorem ofRatio_isFinite {num den : Nat} (h : num < den * pow2 1023) :
    (ofRatio num den).isFinite = true := by
  have hshift : (if num * unit / den < 2 * hiddenBit then 0 else (num * unit / den).log2 - 52) ≤
      2044 := by
    have hunits := units_lt h
    generalize num * unit / den = floor at hunits ⊢
    split
    case isTrue => omega
    case isFalse hlarge =>
      have hne : floor ≠ 0 := by
        rintro rfl
        exact hlarge (by decide)
      have hlog := log2_lt_of_lt_pow2 hne hunits
      omega
  have hpattern := Nat.lt_of_le_of_lt
    (Nat.add_le_add (Nat.mul_le_mul_right hiddenBit hshift) (rounded_le (num * unit) den))
    (show 2044 * hiddenBit + 2 * hiddenBit < 2047 * hiddenBit by decide)
  simp only [ofRatio, if_pos hpattern]
  exact isFinite_of_pattern hpattern

/-! ## Whole numbers -/

theorem negate_isFinite (x : Binary64) : x.negate.isFinite = x.isFinite := by
  have hunsigned : x.negate.unsigned = x.unsigned := by
    rw [unsigned, negate, UInt64.toNat_xor, show signWeight = 2 ^ 63 from rfl, Nat.xor_mod_two_pow]
    exact Nat.xor_zero _
  rw [isFinite, isFinite, exponent, exponent, hunsigned]

theorem ofDecimal_isFinite {n : Nat} (h : n < 0x10000000000000000) :
    (ofDecimal n 0).isFinite = true := by
  have hdigits : (Nat.toDigits 10 n).length ≤ 20 :=
    Nat.toDigits_length 10 n 20 (by decide) (Nat.lt_trans h (by decide))
  simp only [ofDecimal]
  split_ifs
  · decide
  · omega
  · refine ofRatio_isFinite ?_
    rw [Int.toNat_zero, show pow10 0 = 1 from rfl, Nat.mul_one, Nat.one_mul]
    exact Nat.lt_of_lt_of_le h (pow2_le_pow2 (show 64 ≤ 1023 by decide))
  · omega

/-- A whole number of 64 bits is a finite value. -/
theorem ofInt_isFinite {n : Int} (h : Data.fitsWord n = true) : (ofInt n).isFinite = true := by
  simp only [Data.fitsWord, Bool.and_eq_true, decide_eq_true_eq] at h
  have habs := ofDecimal_isFinite (n := n.natAbs) (by omega)
  unfold ofInt
  split
  · rw [negate_isFinite, habs]
  · exact habs

/-- A finite value is a number. -/
theorem isNaN_of_isFinite {x : Binary64} (h : x.isFinite = true) : x.isNaN = false := by
  rw [isFinite, bne_iff_ne] at h
  simp [isNaN, h]

end CoverageTracker.Binary64
