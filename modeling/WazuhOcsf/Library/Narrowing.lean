import Mathlib.Algebra.Order.Ring.Int
import Mathlib.Data.Int.Order.Basic

/-!
# Narrowing an integer

An integer that does not fit a field of `w` bits can be cut to its low bits or clamped to
the nearest bound.  `toNat_ofInt_eq_clamp_iff` says when cutting happens to clamp.
-/

namespace Narrowing

/-- The value of `w` bits nearest to `t`. -/
def clamp (w : ℕ) (t : ℤ) : ℤ := max 0 (min t (2 ^ w - 1))

/-- `t` is a value of `w` bits. -/
def Fits (w : ℕ) (t : ℤ) : Prop := 0 ≤ t ∧ t < 2 ^ w

/-- `t` fits, or its low bits are those of the bound it exceeds. -/
def CutsToClamp (w : ℕ) (t : ℤ) : Prop :=
  Fits w t ∨ (t < 0 ∧ 2 ^ w ∣ t) ∨ (2 ^ w ≤ t ∧ 2 ^ w ∣ t + 1)

theorem clamp_of_fits {w : ℕ} {t : ℤ} (h : Fits w t) : clamp w t = t := by
  rw [clamp, min_eq_left (Int.le_sub_one_of_lt h.2), max_eq_right h.1]

theorem clamp_of_neg {w : ℕ} {t : ℤ} (h : t < 0) : clamp w t = 0 :=
  max_eq_left ((min_le_left _ _).trans h.le)

theorem clamp_of_le {w : ℕ} {t : ℤ} (h : 2 ^ w ≤ t) : clamp w t = 2 ^ w - 1 := by
  have hpos : (0 : ℤ) < 2 ^ w := Int.pow_pos (by decide)
  rw [clamp, min_eq_right (by omega), max_eq_right (by omega)]

/-- The greatest remainder is left just below a multiple. -/
theorem emod_eq_sub_one_iff {m : ℤ} (hm : 0 < m) (t : ℤ) : t % m = m - 1 ↔ m ∣ t + 1 := by
  constructor
  · intro h
    refine ⟨t / m + 1, ?_⟩
    have hdiv := Int.mul_ediv_add_emod t m
    rw [mul_add, mul_one]
    omega
  · rintro ⟨k, hk⟩
    have ht : t = m - 1 + m * (k - 1) := by
      rw [mul_sub, mul_one]
      omega
    rw [ht, Int.add_mul_emod_self_left, Int.emod_eq_of_lt (by omega) (by omega)]

/-- The low bits of an integer are its clamped value only where they have to be, or by
coincidence with the bound. -/
theorem emod_eq_clamp_iff (w : ℕ) (t : ℤ) : t % 2 ^ w = clamp w t ↔ CutsToClamp w t := by
  have hpos : (0 : ℤ) < 2 ^ w := Int.pow_pos (by decide)
  rcases lt_or_ge t 0 with hneg | hnonneg
  · rw [clamp_of_neg hneg, ← Int.dvd_iff_emod_eq_zero, CutsToClamp, Fits]
    refine ⟨fun h => .inr (.inl ⟨hneg, h⟩), ?_⟩
    rintro (h | h | h)
    · exact absurd h.1 (by omega)
    · exact h.2
    · exact absurd h.1 (by omega)
  · rcases lt_or_ge t (2 ^ w) with hlt | hge
    · exact iff_of_true
        ((Int.emod_eq_of_lt hnonneg hlt).trans (clamp_of_fits ⟨hnonneg, hlt⟩).symm)
        (.inl ⟨hnonneg, hlt⟩)
    · rw [clamp_of_le hge, emod_eq_sub_one_iff hpos, CutsToClamp, Fits]
      refine ⟨fun h => .inr (.inr ⟨hge, h⟩), ?_⟩
      rintro (h | h | h)
      · exact absurd h.2 (by omega)
      · exact absurd h.1 (by omega)
      · exact h.2

theorem toNat_ofInt (w : ℕ) (t : ℤ) : ((BitVec.ofInt w t).toNat : ℤ) = t % 2 ^ w := by
  have hpos : (0 : ℤ) < 2 ^ w := Int.pow_pos (by decide)
  have hcast : ((2 ^ w : ℕ) : ℤ) = 2 ^ w := by push_cast; rfl
  rw [BitVec.toNat_ofInt, hcast, Int.toNat_of_nonneg (Int.emod_nonneg t hpos.ne')]

theorem toNat_ofInt_eq_clamp_iff (w : ℕ) (t : ℤ) :
    ((BitVec.ofInt w t).toNat : ℤ) = clamp w t ↔ CutsToClamp w t := by
  rw [toNat_ofInt, emod_eq_clamp_iff]

theorem toNat_setWidth_eq_clamp_iff (w : ℕ) {n : ℕ} (x : BitVec n) :
    ((x.setWidth w).toNat : ℤ) = clamp w x.toNat ↔ CutsToClamp w x.toNat := by
  rw [← toNat_ofInt_eq_clamp_iff, BitVec.ofInt_natCast, BitVec.ofNat_toNat]

end Narrowing
