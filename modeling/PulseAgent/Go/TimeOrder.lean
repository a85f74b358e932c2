import PulseAgent.Go.Duration

/-!
# Comparing elapsed time

`Time.sub` stops at the ends of the 64-bit range.
-/

namespace Go.Time

theorem sub_cases (t u : Int) :
    (t - u < -9223372036854775808 ∧ sub t u = Int64.minValue) ∨
    (9223372036854775808 ≤ t - u ∧ sub t u = Int64.maxValue) ∨
    (sub t u).toInt = t - u := by
  by_cases hmin : t - u < -9223372036854775808
  · exact .inl ⟨hmin, if_pos hmin⟩
  · by_cases hmax : 9223372036854775808 ≤ t - u
    · exact .inr (.inl ⟨hmax, (if_neg hmin).trans (if_pos hmax)⟩)
    · refine .inr (.inr ?_)
      have hsub : sub t u = Int64.ofInt (t - u) := (if_neg hmin).trans (if_neg hmax)
      rw [hsub, Int64.toInt_ofInt_of_le (by omega) (by omega)]

theorem sub_lt_iff (t u : Int) {d : Duration} (hd : Int64.minValue < d) :
    sub t u < d ↔ t - u < d.toInt := by
  have hlow : (-9223372036854775808 : Int) < d.toInt := Int64.lt_iff_toInt_lt.mp hd
  have hhigh : d.toInt < 9223372036854775808 := d.toInt_lt
  rw [Int64.lt_iff_toInt_lt]
  rcases sub_cases t u with ⟨hmin, hsub⟩ | ⟨hmax, hsub⟩ | hsub
  · rw [hsub, show Int64.minValue.toInt = -9223372036854775808 from rfl]
    omega
  · rw [hsub, show Int64.maxValue.toInt = 9223372036854775807 from rfl]
    omega
  · rw [hsub]

theorem lt_sub_iff (t u : Int) {d : Duration} (hd : d < Int64.maxValue) :
    d < sub t u ↔ d.toInt < t - u := by
  have hhigh : d.toInt < 9223372036854775807 := Int64.lt_iff_toInt_lt.mp hd
  have hlow : (-9223372036854775808 : Int) ≤ d.toInt := d.le_toInt
  rw [Int64.lt_iff_toInt_lt]
  rcases sub_cases t u with ⟨hmin, hsub⟩ | ⟨hmax, hsub⟩ | hsub
  · rw [hsub, show Int64.minValue.toInt = -9223372036854775808 from rfl]
    omega
  · rw [hsub, show Int64.maxValue.toInt = 9223372036854775807 from rfl]
    omega
  · rw [hsub]

theorem add_neg_lt (t : Int) {d : Duration} (hd : 0 < d) : add t (-d) < t := by
  have hlow : 0 < d.toInt := Int64.lt_iff_toInt_lt.mp hd
  have hhigh : d.toInt < 9223372036854775808 := d.toInt_lt
  have hneg : (-d).toInt = -d.toInt := by
    rw [Int64.toInt_neg, Int.bmod_eq_of_le (by omega) (by omega)]
  change t + (-d).toInt < t
  rw [hneg]
  omega

end Go.Time
