import Mathlib
import PulseAgent.Go.Float

/-!
# The order of floats

`<` on finite floats compares the rational numbers their shortest texts stand for.
-/

namespace Go

namespace Dec

def toRat (x : Dec) : ℚ := (if x.neg then -1 else 1) * x.mantissa * 10 ^ x.exp

theorem scaled_eq {x : Dec} {shift : Nat} (h : (-x.exp).toNat ≤ shift) :
    (x.scaled shift : ℚ) = x.toRat * 10 ^ shift := by
  have hexp : (10 : ℚ) ^ (x.exp + shift).toNat = 10 ^ x.exp * 10 ^ shift := by
    have hcast : ((x.exp + shift).toNat : ℤ) = x.exp + shift := Int.toNat_of_nonneg (by omega)
    rw [← zpow_natCast, hcast, zpow_add₀ (by norm_num), zpow_natCast]
  unfold scaled toRat
  split_ifs
  · push_cast
    rw [hexp]
    ring
  · push_cast
    rw [hexp]
    ring

theorem lt_iff {x y : Dec} : x.lt y = true ↔ x.toRat < y.toRat := by
  unfold lt
  rw [decide_eq_true_iff, ← Int.cast_lt (R := ℚ), scaled_eq (Nat.le_max_left _ _),
    scaled_eq (Nat.le_max_right _ _)]
  exact mul_lt_mul_iff_of_pos_right (by positivity)

end Dec

theorem Float64.lt_finite {x y : Dec} :
    Float64.lt (.finite x) (.finite y) = true ↔ x.toRat < y.toRat := Dec.lt_iff

theorem Float64.not_lt_finite {x y : Dec} :
    Float64.lt (.finite x) (.finite y) = false ↔ y.toRat ≤ x.toRat := by
  rw [Bool.eq_false_iff, ne_eq, lt_finite, not_lt]

theorem Float64.eq_finite {x : Float64} (h : x.isFinite = true) : ∃ d, x = .finite d := by
  cases x with
  | finite d => exact ⟨d, rfl⟩
  | inf neg => cases h
  | nan => cases h

end Go
