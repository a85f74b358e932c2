import PulseAgent.Delivery.Lifetime

/-!
# Backoff

The loop compares with half the maximum before it doubles, so that the product is never out of range
and the result is the smaller of the exact power and the maximum.
-/

namespace PulseAgent.Delivery

open Go

theorem toInt_min (a b : Duration) : (min a b).toInt = min a.toInt b.toInt := by
  change (if a ≤ b then a else b).toInt = _
  rw [min_def]
  simp only [Int64.le_iff_toInt_le]
  split <;> rfl

/-- Twice the initial backoff for each attempt after the first, up to the maximum. -/
def spacing (d : Dispatcher) (attempt : Nat) : Int :=
  min (d.initialBackoff.toInt * 2 ^ (attempt - 1)) d.maxBackoff.toInt

theorem toInt_half (a : Duration) (h : 0 ≤ a.toInt) : (a / 2).toInt = a.toInt / 2 := by
  rw [Int64.toInt_div, Int.tdiv_eq_ediv_of_nonneg h]
  have := Int64.toInt_lt a
  have h2 : (2 : Int64).toInt = 2 := rfl
  rw [h2]
  refine Int.bmod_eq_of_le ?_ ?_ <;> omega

theorem toInt_double (a : Duration) (h : 0 ≤ a.toInt) (hlt : a.toInt * 2 < 2 ^ 63) :
    (a * 2).toInt = a.toInt * 2 := by
  rw [Int64.toInt_mul]
  have h2 : (2 : Int64).toInt = 2 := rfl
  rw [h2]
  refine Int.bmod_eq_of_le ?_ ?_ <;> omega

theorem backoffLoop_toInt (d : Dispatcher) (retries : Nat) (backoff : Duration)
    (hpos : 0 < backoff.toInt) (hle : backoff.toInt ≤ d.maxBackoff.toInt) :
    (d.backoffLoop retries backoff).toInt =
      min (backoff.toInt * 2 ^ retries) d.maxBackoff.toInt := by
  have hmax := Int64.toInt_lt d.maxBackoff
  induction retries generalizing backoff with
  | zero =>
    rw [Dispatcher.backoffLoop, toInt_min, pow_zero, mul_one]
  | succ retries ih =>
    have hgrow : backoff.toInt * 2 ≤ backoff.toInt * 2 ^ (retries + 1) := by
      have hpow : (1 : Int) ≤ 2 ^ retries := one_le_pow₀ (by decide)
      rw [pow_succ]
      nlinarith
    rw [Dispatcher.backoffLoop]
    split
    case isTrue hlt =>
      split
      case isTrue hhalf =>
        rw [Int64.lt_iff_toInt_lt, toInt_half _ (by omega)] at hhalf
        exact (min_eq_right (by omega)).symm
      case isFalse hhalf =>
        rw [Int64.lt_iff_toInt_lt, toInt_half _ (by omega)] at hhalf
        have hdouble := toInt_double backoff (by omega) (by omega)
        rw [ih _ (by omega) (by omega), hdouble, pow_succ]
        congr 1
        ring
    case isFalse hge =>
      rw [Int64.lt_iff_toInt_lt] at hge
      rw [toInt_min, min_eq_right (by omega), min_eq_right (by omega)]

theorem backoff_toInt (d : Dispatcher) {attempt : Int64} (h : 1 ≤ attempt.toInt) :
    (d.backoff attempt).toInt = spacing d attempt.toInt.toNat := by
  have hone : ¬attempt < 1 := by
    rw [Int64.lt_iff_toInt_lt]
    exact not_lt.mpr h
  rw [Dispatcher.backoff, if_neg hone, backoffLoop_toInt _ _ _ (by have := d.backoffs.1; omega)
    d.backoffs.2]
  rfl

theorem spacing_mono (d : Dispatcher) {k n : Nat} (h : k ≤ n) : spacing d k ≤ spacing d n := by
  have hpos : 0 ≤ d.initialBackoff.toInt := by
    have := d.backoffs.1
    omega
  refine min_le_min_right _ (Int.mul_le_mul_of_nonneg_left ?_ hpos)
  exact pow_le_pow_right₀ (by decide) (Nat.sub_le_sub_right h 1)

/-- The values that the loop of `backoff` doubles, in their order. -/
def Dispatcher.doubled (d : Dispatcher) : Nat → Duration → List Duration
  | 0, _ => []
  | retries + 1, backoff =>
    if backoff < d.maxBackoff then
      if d.maxBackoff / 2 < backoff then [] else backoff :: d.doubled retries (backoff * 2)
    else []

theorem doubled_exact (d : Dispatcher) (retries : Nat) (backoff : Duration)
    (hpos : 0 < backoff.toInt) :
    ∀ value ∈ d.doubled retries backoff, value.toInt * 2 < 2 ^ 63 ∧
      (value * 2).toInt = value.toInt * 2 := by
  have hmax := Int64.toInt_lt d.maxBackoff
  induction retries generalizing backoff with
  | zero => exact fun _ h => absurd h List.not_mem_nil
  | succ retries ih =>
    rw [Dispatcher.doubled]
    split
    case isTrue hlt =>
      split
      case isTrue => exact fun _ h => absurd h List.not_mem_nil
      case isFalse hhalf =>
        rw [Int64.lt_iff_toInt_lt] at hlt
        rw [Int64.lt_iff_toInt_lt, toInt_half _ (by omega)] at hhalf
        have hdouble := toInt_double backoff (by omega) (by omega)
        refine List.forall_mem_cons.mpr ⟨⟨by omega, hdouble⟩, ih _ ?_⟩
        omega
    case isFalse => exact fun _ h => absurd h List.not_mem_nil

/-- The backoff of an attempt is the smaller of the exact power and the maximum, and no doubling on
the way is out of range. -/
theorem backoff_saturating (d : Dispatcher) (n : Int64) (hn : 1 ≤ n.toInt) :
    (d.backoff n).toInt =
      min (d.initialBackoff.toInt * 2 ^ (n.toInt - 1).toNat) d.maxBackoff.toInt ∧
    (∀ value ∈ d.doubled (n.toInt.toNat - 1) d.initialBackoff, value.toInt * 2 < 2 ^ 63 ∧
      (value * 2).toInt = value.toInt * 2) ∧
    (∀ m : Int64, n.toInt ≤ m.toInt → d.backoff n ≤ d.backoff m) ∧
    d.initialBackoff ≤ d.backoff n ∧ d.backoff n ≤ d.maxBackoff := by
  have hbackoff := backoff_toInt d hn
  obtain ⟨hlow, hhigh⟩ := d.backoffs
  have hfirst : spacing d 1 = d.initialBackoff.toInt := by
    rw [spacing, Nat.sub_self, pow_zero, mul_one]
    exact min_eq_left hhigh
  refine ⟨?_, doubled_exact d _ _ (by omega), ?_, ?_, ?_⟩
  · rw [hbackoff, spacing, show n.toInt.toNat - 1 = (n.toInt - 1).toNat by omega]
  · intro m hm
    rw [Int64.le_iff_toInt_le, hbackoff, backoff_toInt d (le_trans hn hm)]
    exact spacing_mono d (Int.toNat_le_toNat hm)
  · rw [Int64.le_iff_toInt_le, hbackoff, ← hfirst]
    exact spacing_mono d (by omega)
  · rw [Int64.le_iff_toInt_le, hbackoff]
    exact min_le_right _ _

theorem backoff_saturating_third :
    (1 : Int) ≤ (3 : Int64).toInt ∧ (exampleDispatcher.backoff 3).toInt = 4000000000 ∧
      exampleDispatcher.doubled 2 exampleDispatcher.initialBackoff = [1000000000, 2000000000] :=
  ⟨by decide, (backoff_saturating exampleDispatcher 3 (by decide)).1, by decide⟩

end PulseAgent.Delivery
