import Mathlib

/-!
# Counters that wrap

A signed counter of 32 bits that was incremented and decremented as often as the number it counts holds
`Int32.ofNat` of that number. It reads 0 at the multiples of `2 ^ 32` only, and below `2 ^ 31` it is the
number itself.
-/

namespace Lib

variable {n : ℕ} {c : Int32}

theorem int32_ofNat_eq_zero : Int32.ofNat n = 0 ↔ 2 ^ 32 ∣ n := by
  have h : (Int32.ofNat n).toBitVec.toNat = n % 2 ^ 32 := by simp
  rw [← Int32.toBitVec_inj, ← BitVec.toNat_inj, h, Nat.dvd_iff_mod_eq_zero]
  rfl

theorem int32_ofNat_eq_zero_of_lt (hn : n < 2 ^ 32) : Int32.ofNat n = 0 ↔ n = 0 := by
  rw [int32_ofNat_eq_zero]
  constructor
  · exact fun h => Nat.eq_zero_of_dvd_of_lt h hn
  · rintro rfl
    exact Nat.dvd_zero _

theorem pos_of_int32_ofNat_ne_zero (h : Int32.ofNat n ≠ 0) : 0 < n := by
  refine Nat.pos_of_ne_zero ?_
  rintro rfl
  exact h rfl

theorem int32_ne_zero_of_pos (h : 0 < c) : c ≠ 0 := by
  rintro rfl
  exact absurd h (by decide)

end Lib
